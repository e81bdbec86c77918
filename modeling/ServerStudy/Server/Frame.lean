import ServerStudy.Server.World
import ServerStudy.SessionManager.Relay
import ServerStudy.TwoRuns

/-!
# ServerStudy.Server.Frame

What a packet handler sees of the sender's read buffer.

Two worlds that differ in one session's read buffer are alike to everything that
sending does (`alike_relay`), so only what the handlers load from the buffer
matters.

* `seesOwn_iff` — that lies within the packet's frame unless a `kMove` is too
  short for a `C2S_MOVE`;
* `shortMove_tells` — of such a one, the bytes behind it are relayed.
-/

namespace ServerStudy

open SessionManager

/-! ## another read buffer -/

/-- A session with other bytes in its read buffer. -/
def Session.withBuffer (b : Mirror kMagicBufferSize) (x : Session) : Session :=
  { x with readOv_.buffer_ := b }

/-- The world with other bytes in the read buffer of the session in slot `u`. -/
def Server.World.withBuffer {N : Nat} (u : Fin N) (b : Mirror kMagicBufferSize)
    (s : World N × Unit) : World N × Unit :=
  ({ s.1 with manager := s.1.manager.setSession u ((s.1.manager.session u).withBuffer b) }, s.2)

namespace Server

namespace World

variable {N : Nat} {u : Fin N}

/-! ## where it lies -/

/-- The read buffer lies within the manager. -/
theorem within_manager : (managerLens : Lens (World N × Unit) (SessionManager N)).Within
    (withBuffer u) fun b m => m.setSession u ((m.session u).withBuffer b) where
  get _ _ := rfl
  set _ _ _ _ := rfl

/-- The pool is apart from it. -/
theorem apart_pool : (poolLens (port N)).Apart (withBuffer u) :=
  within_manager.comp_apart ⟨fun _ _ => rfl, fun _ _ _ => rfl⟩

/-- So is a pointer of the array. -/
theorem apart_ptr (w : Fin N) : (ptrLens (port N) w).Apart (withBuffer u) :=
  (within_manager.comp_apart ⟨fun _ _ => rfl, fun _ _ _ => rfl⟩ :
    ((port N).manager.comp ⟨fun m => m.sessionPtrs_, fun s m => { m with sessionPtrs_ := s },
      fun _ _ => rfl⟩).Apart (withBuffer u)).comp

/-- It lies within the sessions. -/
theorem within_sessions : ((port N).manager.comp ⟨fun m => m.session,
    fun s m => { m with session := s }, fun _ _ => rfl⟩).Within (withBuffer u)
    fun b f => Function.update f u ((f u).withBuffer b) :=
  within_manager.comp ⟨fun _ _ => rfl, fun _ _ _ _ => rfl⟩

/-- It lies within the session of slot `u`. -/
theorem within_session : (sessionLens (port N) u).Within (withBuffer u) Session.withBuffer :=
  within_sessions.comp ⟨fun b f => Function.update_self .., fun b b' f x => by
    simp only [Lens.element, Function.update_self, Function.update_idem]⟩

/-- The session of another slot is apart from it. -/
theorem apart_session {w : Fin N} (h : w ≠ u) : (sessionLens (port N) w).Apart (withBuffer u) :=
  within_sessions.comp_apart ⟨fun b f => Function.update_of_ne h .., fun b f x => by
    simp only [Lens.element, Function.update_of_ne h.symm]
    exact Function.update_comm h.symm ..⟩

/-! ## actions on a session -/

/-- Every action of the program is alike to the read buffer of slot `u`. -/
abbrev Alike {β : Type} (u : Fin N) (p : Prog (World N × Unit) (Socket N) Fault β) : Prop :=
  p.Blind answers (withBuffer u)

variable {β : Type}

/-- An action on a session, if it is alike to that session's read buffer. -/
theorem alike_update (w : Fin N) {f : Session → Except Fault (β × Session)}
    (hf : ∀ x b, ∃ b', f (x.withBuffer b) = Prog.replaced Session.withBuffer b' (f x)) :
    Alike u ((sessionLens (port N) w).update f) := by
  by_cases hw : w = u
  · subst hw
    exact within_session.update hf
  · exact (apart_session hw).update f

/-- A read of a session that does not look at the read buffer. -/
theorem alike_view (w : Fin N) {f : Session → Except Fault β}
    (hf : ∀ x b, f (x.withBuffer b) = f x) : Alike u ((sessionLens (port N) w).view f) := by
  by_cases hw : w = u
  · subst hw
    exact within_session.view hf
  · exact (apart_session hw).view f

/-- The same when the read cannot fault. -/
theorem alike_read (w : Fin N) {f : Session → β} (hf : ∀ x b, f (x.withBuffer b) = f x) :
    Alike u ((sessionLens (port N) w).read f) := by
  by_cases hw : w = u
  · subst hw
    exact within_session.read hf
  · exact (apart_session hw).read f

/-- A write of a session that keeps the read buffer, or replaces it. -/
theorem alike_modify (w : Fin N) {f : Session → Session}
    (hf : ∀ x b, ∃ b', f (x.withBuffer b) = (f x).withBuffer b') :
    Alike u ((sessionLens (port N) w).modify f) := by
  by_cases hw : w = u
  · subst hw
    exact within_session.modify hf
  · exact (apart_session hw).modify f

/-- The pointers in the operations are apart from the bytes. -/
theorem apart_sessionPtr (w : Fin N) (i : Ov) : (ovPtrLens (port N) w i).Apart (withBuffer u) := by
  by_cases hw : w = u
  · subst hw
    have hov : ((Session.ovLens i).comp OverlappedEx.sessionPtr).Apart Session.withBuffer :=
      ⟨fun b x => by cases i <;> rfl, fun b x p => by cases i <;> rfl⟩
    exact ⟨fun b s => (within_session.comp_apart hov).get b s,
      fun b s a => (within_session.comp_apart hov).set b s a⟩
  · exact (apart_session hw).comp.comp

/-! ## pointers -/

/-- Validity is read off the pool. -/
theorem alike_isValid (h : UInt64) : Alike u (SparsePool.isValid (pool (port N)) h) :=
  apart_pool.read _

/-- The slot of a handle is computed. -/
theorem alike_slot (h : UInt64) : Alike u (SessionManager.slot h : Prog _ _ _ (Fin N)) := Prog.Blind.lift _

/-- Counting is the pool's business. -/
theorem alike_addRef (h : UInt64) : Alike u (SparsePool.addRef (pool (port N)) h) :=
  (alike_isValid h).bind fun _ => .ite trivial ((apart_pool.update _).bind fun _ => trivial)

/-- A fault is a fault whatever is in the buffer. -/
theorem alike_fault {e : Fault} : Alike u (Prog.fault e : Prog _ _ _ β) :=
  haveI : Nonempty (Mirror kMagicBufferSize) := ⟨fun _ => 0⟩
  Prog.Blind.fault e

/-- What does not touch the sessions. -/
theorem alike_change {f : World N → World N} (hf : ∀ s b, (withBuffer u b (f s, ())) =
    (f (withBuffer u b (s, ())).1, ())) : Alike u (change f) :=
  Prog.Blind.modify fun s b => ⟨b, (hf s.1 b).symm⟩

/-- What the post-release function does is a turn of another thread. -/
theorem alike_postRelease : Alike u (port N).postRelease := trivial

/-- `Reset` of a pointer that lies apart, of the pool or of the pool as the deleter
sees it. -/
theorem alike_ptrReset {P : PoolPort (World N × Unit) (Socket N) N SessionState.kCnt}
    {l : Lens (World N × Unit) SharedPoolPtr} (hl : l.Apart (withBuffer u))
    (hpool : P.pool.Apart (withBuffer u)) (hdeleter : ∀ idx, Alike u (P.deleter idx))
    (hpost : Alike u P.postRelease) : Alike u (SharedPoolPtr.reset P l) := by
  have hvalid : ∀ h, Alike u (SparsePool.isValid P h) := fun h => hpool.read _
  have hrelease : ∀ h, Alike u (SparsePool.releaseRef P h) := fun h =>
    (hvalid h).bind fun _ => .ite trivial ((hpool.update _).bind fun _ => .ite
      ((hdeleter _).bind fun _ => (hpool.update _).bind fun _ => hpost.bind fun _ => trivial) trivial)
  exact (hl.read _).bind fun p => .ite ((hvalid _).bind fun _ => .ite
    ((hrelease _).bind fun _ => .ite trivial ((hl.modify _).bind fun _ => trivial)) trivial) trivial

/-- `Reset` of an operation may zero the read buffer itself. -/
theorem alike_resetOv (w : Fin N) (i : Ov) : Alike u (resetOv (port N) w i) := by
  refine Prog.Blind.bind ?_ fun _ => ?_
  · refine alike_modify (f := fun x => x.setOv (x.ov i).reset i) w fun x b => ?_
    cases i with
    | read => exact ⟨fun _ => 0, rfl⟩
    | write => exact ⟨b, rfl⟩
    | disconnect => exact ⟨b, rfl⟩
  · exact (alike_ptrReset (apart_sessionPtr w i) apart_pool (fun _ => alike_fault)
      alike_postRelease).bind fun _ => trivial

/-- So may the deleter, which resets them. -/
theorem alike_deleter (idx : Nat) : Alike u (deleter (port N) idx) := by
  refine (Prog.Blind.lift _).bind fun w => (alike_resetOv w .read).bind fun _ =>
    (alike_resetOv w .write).bind fun _ => ?_
  exact (alike_modify w fun x b => ⟨b, rfl⟩).bind fun _ => alike_modify w fun x b => ⟨b, rfl⟩

/-- And so the last release. -/
theorem alike_releaseRef (h : UInt64) : Alike u (SparsePool.releaseRef (pool (port N)) h) :=
  (alike_isValid h).bind fun _ => .ite trivial ((apart_pool.update _).bind fun _ => .ite
    ((alike_deleter _).bind fun _ => (apart_pool.update _).bind fun _ => trivial) trivial)

/-- Resetting a pointer of an operation. -/
theorem alike_reset (w : Fin N) (i : Ov) :
    Alike u (SessionManager.reset (port N) (ovPtrLens (port N) w i)) := by
  refine Prog.Blind.bind ?_ fun _ => trivial
  exact alike_ptrReset (apart_sessionPtr w i) apart_pool alike_deleter alike_postRelease

/-- Assigning one. -/
theorem alike_assign (w : Fin N) (i : Ov) (p : SharedPoolPtr) :
    Alike u (SessionManager.assign (port N) (ovPtrLens (port N) w i) p) := by
  refine ((apart_sessionPtr w i).read _).bind fun current => .ite ?_ ?_
  · exact (alike_releaseRef _).bind fun _ => (apart_sessionPtr w i).modify _
  · exact (apart_sessionPtr w i).modify _

/-- A pointer is valid by the pool. -/
theorem alike_ptrIsValid (p : SharedPoolPtr) : Alike u (SharedPoolPtr.isValid (pool (port N)) p) :=
  .ite (alike_isValid _) trivial

/-- Following a pointer. -/
theorem alike_deref (p : SharedPoolPtr) : Alike u (deref (port N) p) := by
  refine (alike_ptrIsValid p).bind fun _ => .ite alike_fault ?_
  exact (alike_isValid _).bind fun _ => .ite alike_fault (alike_slot _)

/-- `GetSession` copies a pointer of the array. -/
theorem alike_getSession (h : UInt64) : Alike u (getSession (port N) h) := by
  refine (alike_isValid h).bind fun _ => .ite trivial ((alike_slot h).bind fun w => ?_)
  refine ((apart_ptr w).read _).bind fun p => .ite ?_ trivial
  exact (alike_addRef _).bind fun _ => trivial

/-! ## sending -/

/-- `sessionManager_` is read off the session. -/
theorem alike_managerOf (w : Fin N) : Alike u (managerOf (port N) w) := alike_view w fun _ _ => rfl

/-- `WSASend` may be answered the same. -/
theorem alike_wsaSend (w : Fin N) (wsaBuf : WsaBuf) : Alike u ((port N).wsaSend w wsaBuf) := by
  refine Prog.Blind.atomically (Prog.Blind.bind (.query fun s b a ha => ha) fun r => ?_)
  exact Prog.Blind.ite ((alike_change fun _ _ => rfl).bind fun _ => trivial) trivial

/-- `RegisterWriteInternal` touches the sending side alone. -/
theorem alike_registerWrite (w : Fin N) : Alike u (Session.registerWriteInternal
    (sessionPort (port N) (fun _ => Prog.fault .emptyFunction) w)) := by
  refine (alike_update w fun x b => ⟨b, ?_⟩).bind fun _ => (alike_read w fun _ _ => rfl).bind
    fun handle => Prog.Blind.bind ?_ fun _ => (alike_read w fun _ _ => rfl).bind fun wsaBuf =>
      (alike_wsaSend w wsaBuf).bind fun r => ?_
  · obtain ⟨readOv, writeOv, disconnectOv, handle, manager, listener, isSending⟩ := x
    cases isSending <;> rfl
  · exact (alike_managerOf w).bind fun _ => (alike_getSession handle).bind fun p =>
      alike_assign w .write p
  · cases r with
    | ok => trivial
    | socketError errorCode => exact .ite trivial ((alike_reset w .write).bind fun _ => trivial)

/-- `SendPacket` copies into the write buffer. -/
theorem alike_sendPacket (packet : List UInt8) (w : Fin N) :
    Alike u (sendPacket (port N) packet w) := by
  refine Prog.Blind.atomically ((alike_read w fun _ _ => rfl).bind fun available => .ite trivial ?_)
  refine (alike_update w fun x b => ⟨b, ?_⟩).bind fun _ => (alike_read w fun _ _ => rfl).bind
    fun isSending => .ite ?_ trivial
  · simp only [Session.copyIn]
    split_ifs
    · rfl
    · simp only [Session.withBuffer]
      cases x.writeOv_.store x.writeOv_.writePos_ _ <;> rfl
  · refine (alike_modify w fun x b => ⟨b, rfl⟩).bind fun _ => ?_
    exact (alike_registerWrite w).bind fun _ => .ite trivial trivial

/-- The loop of `Broadcast`: every round of it is alike. -/
theorem alike_broadcastLoop (packet : List UInt8) (sessionHandle : UInt64) (handles : List UInt64) :
    Alike u (broadcastLoop (sendTo (port N) (send (port N) packet)) sessionHandle handles) := by
  induction handles with
  | nil => trivial
  | cons handle handles ih =>
      refine .ite (Prog.Blind.bind ?_ fun _ => ih) ih
      refine (alike_slot handle).bind fun idx => ((apart_ptr idx).read _).bind fun p =>
        (alike_ptrIsValid p).bind fun _ => .ite ?_ trivial
      exact (((apart_ptr idx).read _).bind fun p => alike_deref p).bind fun w =>
        (alike_sendPacket packet w).bind fun _ => trivial

/-- **Sending does not look at a read buffer.** -/
theorem alike_relay (whole : Bool) (w : Fin N) (packet : List UInt8) (sessionHandle : UInt64) :
    Alike u (relay whole w packet sessionHandle) := by
  have hbroadcast : Alike u (broadcast (port N) (send (port N) packet) sessionHandle) :=
    (apart_pool.view _).bind fun handles => alike_broadcastLoop packet sessionHandle handles
  exact (alike_managerOf w).bind fun _ => .ite hbroadcast.atomically hbroadcast

end World

end Server

namespace PacketHandler

/-- A session, and what its handlers have handed over to `Broadcast`. -/
abbrev Desk : Type := Session × List (List UInt8 × UInt64)

/-- The session of a desk. -/
def Desk.self : Lens Desk Session where
  get s := s.1
  set x s := (x, s.2)
  get_set _ _ := rfl

/-- `Broadcast`, as far as the handlers are concerned. -/
def Desk.handOver (packet : List UInt8) (sessionHandle : UInt64) :
    Prog Desk (fun _ => Empty) Fault Bool := do
  Prog.modify fun s => (s.1, s.2 ++ [(packet, sessionHandle)])
  return true

/-- What `Execute` hands over for the packet at an offset. -/
def handed (x : Session) (off : Nat) : Except Fault (Bool × List (List UInt8 × UInt64)) :=
  (Prog.run (fun _ _ (q : Empty) => q.elim) (execute Desk.self (handlers
    (handleC2SMove Desk.self Desk.handOver) (handleC2SChat Desk.self Desk.handOver)) off)
    (x, [])).map fun r => (r.1, r.2.2)

/-- At this offset lies a packet that `OnRead` executes, and that has a handler. -/
structure Frame (x : Session) (off : Nat) (header : PacketHeader) : Prop where
  loaded : (x.readOv_.load off PacketHeader.sizeOf).map PacketHeader.ofBytes = .ok header
  size : PacketHeader.sizeOf ≤ header.size.toNat
  id : Registered header.id
  mapped : off + header.size.toNat ≤ 2 * kMagicBufferSize

/-- The same bytes in a frame. -/
def SameFrame (off size : Nat) (b b' : Mirror kMagicBufferSize) : Prop :=
  ∀ i < size, b'.byte (off + i) = b.byte (off + i)

variable {x : Session} {off : Nat} {header : PacketHeader} {b : Mirror kMagicBufferSize}

/-- Slices are equal when their bytes are. -/
theorem slice_congr {b b' : Mirror kMagicBufferSize} {off n : Nat}
    (h : ∀ i < n, b'.byte (off + i) = b.byte (off + i)) : b'.slice off n = b.slice off n := by
  induction n generalizing off with
  | zero => rfl
  | succ n ih =>
      rw [Mirror.slice_succ, Mirror.slice_succ, ih fun i hi => ?_]
      · have h0 := h 0 (Nat.zero_lt_succ n)
        rw [Nat.add_zero] at h0
        rw [h0]
      · have hi' := h (i + 1) (Nat.succ_lt_succ hi)
        rwa [← Nat.add_assoc, Nat.add_right_comm] at hi'

/-- Bytes of the frame are the same. -/
theorem load_withBuffer {size k n : Nat} (h : SameFrame off size x.readOv_.buffer_ b)
    (hn : k + n ≤ size) : (x.withBuffer b).readOv_.load (off + k) n = x.readOv_.load (off + k) n := by
  have hslice : b.slice (off + k) n = x.readOv_.buffer_.slice (off + k) n :=
    slice_congr fun i hi => by
      rw [Nat.add_assoc]
      exact h (k + i) (by omega)
  simp only [OverlappedEx.load, Session.withBuffer, Mirror.read?, hslice]

/-- The handler of the packet's id runs. -/
theorem handed_execute
    (hloaded : (x.readOv_.load off PacketHeader.sizeOf).map PacketHeader.ofBytes = .ok header)
    (handler : Nat → Prog Desk (fun _ => Empty) Fault Bool)
    (hid : (handlers (handleC2SMove Desk.self Desk.handOver)
      (handleC2SChat Desk.self Desk.handOver)).get? header.id.toNat = some (some handler)) :
    handed x off = (Prog.run (fun _ _ (q : Empty) => q.elim) (handler off) (x, [])).map
      fun r => (r.1, r.2.2) := by
  unfold handed execute
  rw [Prog.bind_eq, Prog.run_view_ok (x := header) hloaded]
  simp only [hid]

/-- The packet that a move is relayed by; `y` ends 12 bytes into it. -/
def moved (x : Session) (off : Nat) : List UInt8 :=
  S2CMove.bytes ⟨UInt16.ofNat S2CMove.sizeOf, S2CPacketId.kMove.toUInt16⟩ x.handle_
    (x.readOv_.buffer_.slice (off + 4) 4) (x.readOv_.buffer_.slice (off + 8) 4)

/-- A load within the two mappings returns the bytes there. -/
theorem load_ok {n : Nat} (hmap : off + n ≤ 2 * kMagicBufferSize) :
    x.readOv_.load off n = .ok (x.readOv_.buffer_.slice off n) := by
  rw [OverlappedEx.load, Mirror.read?_of_le _ hmap, Prog.orFault_some]

/-- A move is handed over when 12 bytes of it are mapped, whatever its size. -/
theorem handed_move
    (hloaded : (x.readOv_.load off PacketHeader.sizeOf).map PacketHeader.ofBytes = .ok header)
    (hid : header.id.toNat = 1) {l : List (List UInt8 × UInt64)} :
    handed x off = .ok (true, l) ↔ off + 12 ≤ 2 * kMagicBufferSize ∧ l = [(moved x off, x.handle_)] := by
  rw [handed_execute hloaded (handleC2SMove Desk.self Desk.handOver)
    (by rw [handlers_get?, hid]; rfl)]
  unfold handleC2SMove
  rw [Prog.bind_eq, Prog.run_read]
  by_cases hmap : off + 12 ≤ 2 * kMagicBufferSize
  · have hxs : x.readOv_.load (off + 4) 4 = _ := load_ok (by omega)
    have hys : x.readOv_.load (off + 8) 4 = _ := load_ok (by omega)
    rw [Prog.bind_eq, Prog.run_view_ok hxs, Prog.bind_eq, Prog.run_view_ok hys, and_iff_right hmap]
    constructor
    · intro h
      cases h
      rfl
    · rintro rfl
      rfl
  · have hys : x.readOv_.load (off + 8) 4 = .error (.outOfRange .buffer) := by
      rw [OverlappedEx.load, Mirror.read?, if_neg (by omega), Prog.orFault_none]
    refine iff_of_false (fun h => ?_) fun h => hmap h.1
    cases hxs : x.readOv_.load (off + 4) 4 with
    | error e =>
        rw [Prog.bind_eq, Prog.run_view_error (e := e) hxs] at h
        cases h
    | ok xs =>
        rw [Prog.bind_eq, Prog.run_view_ok (x := xs) hxs, Prog.bind_eq,
          Prog.run_view_error (e := .outOfRange .buffer) hys] at h
        cases h

/-- The packet that a chat is relayed by; its payload is the rest of the frame. -/
def chatted (x : Session) (off : Nat) (size : UInt16) : List UInt8 :=
  PacketHeader.bytes ⟨UInt16.ofNat (size.toNat + 8), S2CPacketId.kChat.toUInt16⟩ ++
    (leBytes 8 x.handle_.toNat ++ x.readOv_.buffer_.slice (off + 4) (size.toNat - 4))

/-- A chat is handed over. -/
theorem handed_chat (hframe : Frame x off header) (hid : header.id.toNat = 2) :
    handed x off = .ok (true, [(chatted x off header.size, x.handle_)]) := by
  have hsize := hframe.size
  have hlt := header.size.toNat_lt
  rw [PacketHeader.sizeOf] at hsize
  have hpayload : x.readOv_.load (off + PacketHeader.sizeOf)
      (sub64 header.size.toNat PacketHeader.sizeOf) =
      .ok (x.readOv_.buffer_.slice (off + 4) (header.size.toNat - 4)) := by
    have hmapped := hframe.mapped
    rw [PacketHeader.sizeOf, sub64_of_le hsize (by omega), OverlappedEx.load,
      Mirror.read?_of_le _ (by omega), Prog.orFault_some]
  rw [handed_execute hframe.loaded (handleC2SChat Desk.self Desk.handOver)
    (by rw [handlers_get?, hid]; rfl)]
  unfold handleC2SChat
  rw [Prog.bind_eq, Prog.run_view_ok (x := header) hframe.loaded, Prog.bind_eq, Prog.run_read]
  generalize sub64 header.size.toNat PacketHeader.sizeOf = n at hpayload ⊢
  rw [Prog.bind_eq, Prog.run_view_ok hpayload]
  have hchat := chatPacket_eq hsize x.handle_ (Mirror.length_slice x.readOv_.buffer_ (off + 4)
    (header.size.toNat - 4))
  have hself : Desk.self.get (x, []) = x := rfl
  rw [hself, hchat, Prog.bind_eq, Prog.run_lift_ok]
  rfl

/-- What `OnRead` executes is a packet at the front of what is waiting. -/
theorem frame_of_holds {packet rest : List UInt8} (h : x.readOv_.Holds (packet ++ rest))
    (h4 : PacketHeader.sizeOf ≤ packet.length) (hsize : packets.size packet = packet.length)
    (hid : Registered (PacketHeader.ofBytes packet).id) :
    Frame x x.readOv_.readPos_ (PacketHeader.ofBytes packet) := by
  have hlen : (packet ++ rest).length = packet.length + rest.length := List.length_append
  have hmapped := h.mapped
  have hsize' : (PacketHeader.ofBytes packet).size.toNat = packet.length := hsize
  rw [PacketHeader.sizeOf] at h4
  refine ⟨?_, hsize'.symm ▸ h4, hid, ?_⟩
  · rw [PacketHeader.sizeOf, h.load (by omega), Except.map, List.take_append_of_le_length h4,
      Session.ofBytes_take h4]
  · rw [hsize']
    exact (Nat.add_le_add_left (Nat.le.intro hlen.symm) _).trans hmapped

/-- A frame is a frame of the other session, if the bytes of the frame are the same. -/
theorem Frame.withBuffer (hframe : Frame x off header)
    (h : SameFrame off header.size.toNat x.readOv_.buffer_ b) : Frame (x.withBuffer b) off header where
  loaded := by
    have hload := load_withBuffer (k := 0) h ((Nat.zero_add _).trans_le hframe.size)
    rw [Nat.add_zero] at hload
    rw [hload, hframe.loaded]
  size := hframe.size
  id := hframe.id
  mapped := hframe.mapped

/-- The packet is a `kMove` that is shorter than a `C2S_MOVE`. -/
def ShortMove (header : PacketHeader) : Prop :=
  header.id.toNat = C2SPacketId.kMove.toNat ∧ header.size.toNat < C2SMove.sizeOf

instance (header : PacketHeader) : Decidable (ShortMove header) :=
  inferInstanceAs (Decidable (_ ∧ _))

/-- Unless it is a short `kMove`, what is handed over lies in the frame. -/
theorem handed_of_fits (hframe : Frame x off header) (hfits : ¬ ShortMove header) :
    ∃ l, ∀ b, SameFrame off header.size.toNat x.readOv_.buffer_ b →
      handed (x.withBuffer b) off = .ok (true, l) := by
  rcases hframe.id with hid | hid
  · have h12 : 12 ≤ header.size.toNat := not_lt.mp fun hlt => hfits ⟨hid, hlt⟩
    have hmapped := hframe.mapped
    refine ⟨[(moved x off, x.handle_)], fun b hb => ?_⟩
    have hslice : ∀ k, k + 4 ≤ 12 → b.slice (off + k) 4 = x.readOv_.buffer_.slice (off + k) 4 :=
      fun k hk => slice_congr fun i hi => by
        rw [Nat.add_assoc]
        exact hb (k + i) (by omega)
    rw [handed_move (hframe.withBuffer hb).loaded hid]
    refine ⟨by omega, ?_⟩
    simp only [moved, Session.withBuffer, hslice 4 (by omega), hslice 8 (by omega)]
  · refine ⟨[(chatted x off header.size, x.handle_)], fun b hb => ?_⟩
    have hslice : b.slice (off + 4) (header.size.toNat - 4) =
        x.readOv_.buffer_.slice (off + 4) (header.size.toNat - 4) := slice_congr fun i hi => by
      rw [Nat.add_assoc]
      exact hb (4 + i) (by omega)
    rw [handed_chat (hframe.withBuffer hb) hid]
    simp only [chatted, Session.withBuffer, hslice]

/-- Of a short `kMove` the last byte of `y` lies outside the frame. -/
theorem not_handed_of_short (hframe : Frame x off header) (hshort : ShortMove header) :
    ¬ ∃ l, ∀ b, SameFrame off header.size.toNat x.readOv_.buffer_ b →
      handed (x.withBuffer b) off = .ok (true, l) := by
  rintro ⟨l, hl⟩
  obtain ⟨hid, hlt⟩ := hshort
  have hlt' : header.size.toNat < 12 := hlt
  have hB : kMagicBufferSize = 65536 := rfl
  let b₁ : Mirror kMagicBufferSize := Function.update x.readOv_.buffer_
    (Fin.ofNat kMagicBufferSize (off + 11)) (x.readOv_.buffer_.byte (off + 11) + 1)
  have hbyte : b₁.byte (off + 11) = x.readOv_.buffer_.byte (off + 11) + 1 := Function.update_self ..
  have hsame : SameFrame off header.size.toNat x.readOv_.buffer_ b₁ := fun i hi =>
    Function.update_of_ne (Mirror.ofNat_ne_of_lt (by omega) (by omega)) _ _
  have hown : handed x off = .ok (true, l) := hl x.readOv_.buffer_ fun _ _ => rfl
  have hother := hl b₁ hsame
  rw [handed_move hframe.loaded hid] at hown
  rw [handed_move (hframe.withBuffer hsame).loaded hid, hown.2] at hother
  have hmoved : moved x off = moved (x.withBuffer b₁) off := by
    simp only [List.cons.injEq, Prod.mk.injEq, and_true] at hother
    exact hother.2.1
  have hy := (List.append_inj' hmoved (by simp)).2
  simp only [Mirror.slice_succ, Mirror.slice_zero, List.cons.injEq, Session.withBuffer] at hy
  have hlast : x.readOv_.buffer_.byte (off + 11) = b₁.byte (off + 11) := hy.2.2.2.1
  rw [hbyte] at hlast
  have hnat := congrArg UInt8.toNat hlast
  have hlt := (x.readOv_.buffer_.byte (off + 11)).toNat_lt
  rw [UInt8.toNat_add] at hnat
  have hone : (1 : UInt8).toNat = 1 := rfl
  omega

end PacketHandler

/-! ## two runs of `Execute` -/

namespace Server

namespace World

open PacketHandler

variable {N : Nat} {u : Fin N} {whole : Bool} {s : World N} {off : Nat} {header : PacketHeader}

/-- `Execute` queues identical packets on every session, whatever is in the
sender's read buffer outside the frame: it returns the same, and leaves worlds
that are the same but for that buffer.  And what it hands over to `Broadcast` is
read within the frame. -/
structure SeesOwn (whole : Bool) (s : World N) (u : Fin N) (off : Nat) (header : PacketHeader) :
    Prop where
  queues : ∀ b, SameFrame off header.size.toNat (s.manager.session u).readOv_.buffer_ b →
    ∀ r, Prog.Exec answers (execute whole u off) (s, ()) r → ∃ b',
      Prog.Exec answers (execute whole u off) (withBuffer u b (s, ()))
        (Prog.replaced (withBuffer u) b' r)
  reads : ∃ l, ∀ b, SameFrame off header.size.toNat (s.manager.session u).readOv_.buffer_ b →
    handed ((s.manager.session u).withBuffer b) off = .ok (true, l)

/-- What a handler does with what it has read. -/
theorem alike_handOver (packet : List UInt8) (handle : UInt64) : Alike u (do
    if !(← relay whole u packet handle) then
      return false
    return true) :=
  (alike_relay whole u packet handle).bind fun _ => .ite trivial trivial

/-- Where the frame is what is read, two runs are one. -/
theorem twin_execute (hframe : Frame (s.manager.session u) off header) (hfits : ¬ ShortMove header)
    {b : Mirror kMagicBufferSize}
    (hb : SameFrame off header.size.toNat (s.manager.session u).readOv_.buffer_ b) :
    Prog.Twin answers (withBuffer u) b (execute whole u off) (s, ()) := by
  have hself : (sessionLens (port N) u).get (withBuffer u b (s, ())) =
      (s.manager.session u).withBuffer b := within_session.get b (s, ())
  have hload : ∀ k n, k + n ≤ header.size.toNat →
      ((sessionLens (port N) u).get (withBuffer u b (s, ()))).readOv_.load (off + k) n =
        (s.manager.session u).readOv_.load (off + k) n := fun k n hk => by
    rw [hself]
    exact load_withBuffer hb hk
  have hhandle : ((sessionLens (port N) u).get (withBuffer u b (s, ()))).handle_ =
      ((sessionLens (port N) u).get (s, ())).handle_ := by
    rw [hself]
    rfl
  have hsize := hframe.size
  have hheader : (((sessionLens (port N) u).get (withBuffer u b (s, ()))).readOv_.load off
      PacketHeader.sizeOf).map PacketHeader.ofBytes =
      ((s.manager.session u).readOv_.load off PacketHeader.sizeOf).map PacketHeader.ofBytes :=
    congrArg (Except.map PacketHeader.ofBytes) (hload 0 4 ((Nat.zero_add _).trans_le hsize))
  unfold World.execute PacketHandler.execute
  refine Prog.Twin.view hheader fun header' hh => ?_
  have hid' : header'.id = header.id := by rw [Except.ok.inj (hh.symm.trans hframe.loaded)]
  rcases hframe.id with hid | hid
  · have h12 : 12 ≤ header.size.toNat := not_lt.mp fun hlt => hfits ⟨hid, hlt⟩
    have hmove : (handlers (handleC2SMove (sessionLens (port N) u) (relay whole u))
        (handleC2SChat (sessionLens (port N) u) (relay whole u))).get? header'.id.toNat =
        some (some (handleC2SMove (sessionLens (port N) u) (relay whole u))) := by
      rw [handlers_get?, hid', hid]
      rfl
    simp only [hmove]
    refine Prog.Twin.read hhandle ?_
    refine Prog.Twin.view (hload 4 4 (by omega)) fun xs _ => ?_
    refine Prog.Twin.view (hload 8 4 (by omega)) fun ys _ => ?_
    exact (alike_handOver _ _).twin b _
  · have hchat : (handlers (handleC2SMove (sessionLens (port N) u) (relay whole u))
        (handleC2SChat (sessionLens (port N) u) (relay whole u))).get? header'.id.toNat =
        some (some (handleC2SChat (sessionLens (port N) u) (relay whole u))) := by
      rw [handlers_get?, hid', hid]
      rfl
    simp only [hchat]
    refine Prog.Twin.view hheader fun header'' hh' => ?_
    have hsize' : sub64 header''.size.toNat PacketHeader.sizeOf = header.size.toNat - 4 := by
      rw [Except.ok.inj (hh'.symm.trans hframe.loaded)]
      exact sub64_of_le hsize (by have := header.size.toNat_lt; omega)
    rw [hsize']
    refine Prog.Twin.read hhandle ?_
    refine Prog.Twin.view (hload 4 _ ?_) fun payload _ => ?_
    · have hsize : 4 ≤ header.size.toNat := hsize
      omega
    · exact Prog.Blind.twin ((Prog.Blind.lift _).bind fun data => alike_handOver _ _) b _

/-- **A handler sees only its own packet, unless that is a `kMove` too short for a
`C2S_MOVE`.** -/
theorem seesOwn_iff (whole : Bool) (s : World N) (u : Fin N) (off : Nat) (header : PacketHeader)
    (hframe : Frame (s.manager.session u) off header) :
    SeesOwn whole s u off header ↔ ¬ ShortMove header := by
  constructor
  · intro h hshort
    exact not_handed_of_short hframe hshort h.reads
  · intro hfits
    exact ⟨fun b hb r hr => twin_execute hframe hfits hb r hr, handed_of_fits hframe hfits⟩

/-- Two connected clients, and a chat message of two bytes of the first. -/
theorem seesOwn_iff_chat : ∃ s : World 2,
    s.manager.state 0 = SessionState.kConnected.toNat ∧
    s.manager.state 1 = SessionState.kConnected.toNat ∧
    (s.manager.session 0).readOv_.Holds [6, 0, 2, 0, 104, 105] ∧
    (SeesOwn false s 0 (s.manager.session 0).readOv_.readPos_ ⟨6, 2⟩ ↔ ¬ ShortMove ⟨6, 2⟩) := by
  obtain ⟨m, -, h0, h1, hholds, -⟩ := Relay.exists_pair [6, 0, 2, 0, 104, 105] (by decide)
  have hframe := frame_of_holds hholds (by decide) (by decide) (by decide)
  exact ⟨{ World.new 2 with manager := m }, h0, h1, hholds,
    seesOwn_iff false { World.new 2 with manager := m } 0 _ ⟨6, 2⟩ hframe⟩

/-- The session in a slot has received a `kMove` of 4 bytes, over these stale ones. -/
def shortMove (m : SessionManager N) (u : Fin N) (stale : List UInt8) : World N where
  __ := World.new N
  manager := m.setSession u { m.session u with
    readOv_ := { buffer_ := Mirror.write (fun _ => 0) 0 ([4, 0, 1, 0] ++ stale), writePos_ := 4 } }

/-- The kernel sends nothing. -/
def sendsNothing : ∀ β : Type, World N × Unit → Socket N β → β
  | _, _, .acceptEx _ | _, _, .disconnectEx _ => ⟨false, 0⟩
  | _, _, .setsockopt _ => 0
  | _, _, .wsaRecv _ _ | _, _, .wsaSend _ _ => .socketError 0
  | _, _, .deliver _ _ => ⟨false, 0, fun _ => 0⟩

/-- What `Execute` of the session in slot `u` returns for that `kMove`, and the bytes that it
queues on the one in slot `v`. -/
def shortMoveQueues (m : SessionManager N) (u v : Fin N) (stale : List UInt8) :
    Option (Bool × List UInt8) :=
  (Prog.run sendsNothing (execute false u 0) (shortMove m u stale, ())).toOption.map fun r =>
    (r.1, (r.2.1.manager.session v).writeOv_.buffer_.slice 0 S2CMove.sizeOf)

/-- Two connected clients, and a `kMove` of 4 bytes: the other client is sent the bytes that
happen to follow them. -/
theorem shortMove_tells : ∃ (h : Holding 2) (releases : Fin 2 → Nat), h.Reachable releases ∧
    h.manager.state 0 = SessionState.kConnected.toNat ∧
    h.manager.state 1 = SessionState.kConnected.toNat ∧
    Frame ((shortMove h.manager 0 []).manager.session 0) 0 ⟨4, 1⟩ ∧
    SameFrame 0 4 ((shortMove h.manager 0 []).manager.session 0).readOv_.buffer_
      ((shortMove h.manager 0 [1, 2, 3, 4, 5, 6, 7, 8]).manager.session 0).readOv_.buffer_ ∧
    shortMoveQueues h.manager 0 1 [] = some (true,
      [20, 0, 1, 0, 0, 0, 0, 0, 0, 0, 0, 0, 0, 0, 0, 0, 0, 0, 0, 0]) ∧
    shortMoveQueues h.manager 0 1 [1, 2, 3, 4, 5, 6, 7, 8] = some (true,
      [20, 0, 1, 0, 0, 0, 0, 0, 0, 0, 0, 0, 1, 2, 3, 4, 5, 6, 7, 8]) ∧
    ¬ SeesOwn false (shortMove h.manager 0 []) 0 0 ⟨4, 1⟩ := by
  have hplay : ((Holding.play (⟨.new 2, []⟩ : Holding 2)
      [.createSession, .createSession, .connectSession 0, .connectSession 1]).map fun h =>
        ((h.manager.state 0, h.manager.state 1), shortMoveQueues h.manager 0 1 [],
          shortMoveQueues h.manager 0 1 [1, 2, 3, 4, 5, 6, 7, 8])) =
      some ((2, 2),
        some (true, [20, 0, 1, 0, 0, 0, 0, 0, 0, 0, 0, 0, 0, 0, 0, 0, 0, 0, 0, 0]),
        some (true, [20, 0, 1, 0, 0, 0, 0, 0, 0, 0, 0, 0, 1, 2, 3, 4, 5, 6, 7, 8])) := by
    decide +kernel
  obtain ⟨h, hs, hvals⟩ := Option.map_eq_some_iff.mp hplay
  simp only [Prod.mk.injEq] at hvals
  obtain ⟨⟨h0, h1⟩, hclean, hstale⟩ := hvals
  obtain ⟨releases, hreach⟩ := Holding.Reachable.start.play (fun w => by simp) hs
  have hsession : ∀ stale, ((shortMove h.manager 0 stale).manager.session 0).readOv_ =
      { buffer_ := Mirror.write (fun _ => 0) 0 ([4, 0, 1, 0] ++ stale), writePos_ := 4 } := fun _ =>
    congrArg Session.readOv_ (session_setSession ..)
  have hframe : Frame ((shortMove h.manager 0 []).manager.session 0) 0 ⟨4, 1⟩ := by
    refine ⟨?_, by decide, by decide, by decide⟩
    rw [hsession]
    rfl
  refine ⟨h, releases, hreach, h0, h1, hframe, fun i hi => ?_, hclean, hstale, fun hsees => ?_⟩
  · rw [hsession, hsession]
    interval_cases i <;> rfl
  · exact not_handed_of_short hframe ⟨rfl, by decide⟩ hsees.reads

end World

end Server

end ServerStudy
