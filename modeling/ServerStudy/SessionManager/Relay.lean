import ServerStudy.SessionManager.Handles
import ServerStudy.Session.Read
import ServerStudy.Session.Write

/-!
# ServerStudy.SessionManager.Relay

What a chat packet of one client puts into the queues of the others.

The handler, `Broadcast` and the `SendPacket`s run on the manager's memory.  The
references that `sessionPtr_` takes and drops do not matter here and are left
out; the kernel answers as it likes.

* `wp_relay` — the packet joins the queue of every other connected session with
  room for it;
* `relays_iff` — read back there, it is the one that was meant exactly when its
  size fits the 16 bits of its header.
-/

namespace ServerStudy

namespace SessionManager

variable {N : Nat}

/-! ## the handler and what it calls -/

namespace Relay

/-- The manager is the whole memory. -/
def managerLens : Lens (SessionManager N) (SessionManager N) where
  get m := m
  set m _ := m
  get_set _ _ := rfl

/-- The manager.  `Broadcast` calls nothing but `SendPacket`. -/
def port : ServerPort (SessionManager N) SessionCall N where
  manager := managerLens
  postRelease := Prog.fault .endless
  wsaRecv _ _ := Prog.fault .emptyFunction
  wsaSend _ _ := Prog.fault .emptyFunction
  disconnectEx _ := Prog.fault .emptyFunction
  acceptEx _ := Prog.fault .emptyFunction
  setsockopt _ := Prog.fault .emptyFunction

/-- `SendPacket` on the session in a slot. -/
def send (packet : List UInt8) (_handle : UInt64) (w : Fin N) :
    Prog (SessionManager N) SessionCall Fault Bool :=
  Session.sendPacket (.alone (sessionLens port w) fun _ => Prog.fault .emptyFunction) packet

/-- `HandleC2S_CHAT` of the session in a slot, for the packet at `readPos_`. -/
def handleC2SChat (u : Fin N) : Prog (SessionManager N) SessionCall Fault Bool := do
  let off ← (sessionLens port u).read fun s => s.readOv_.readPos_
  PacketHandler.handleC2SChat (sessionLens port u) (fun packet sessionHandle => do
    managerOf port u
    broadcast port (send packet) sessionHandle) off

/-- Anything may be answered. -/
def anything : Answers (SessionManager N) SessionCall := fun _ _ _ _ => True

theorem exists_answer (β : Type) (m : SessionManager N) (q : SessionCall β) :
    ∃ a, anything β m q a := by
  cases q with
  | wsaRecv | wsaSend => exact ⟨.ok, trivial⟩
  | _ => exact ⟨default, trivial⟩

end Relay

/-- Every session in use knows its handle and its manager, and a connected one is reached
through the array. -/
structure Serving (m : SessionManager N) : Prop where
  repr : ∃ b, SparseSet.Repr m.sessionPool_.set b
  used : ∀ w, m.state w ≠ 0 → (m.session w).handle_ = m.handleAt w
  managed : ∀ w, m.state w ≠ 0 → (m.session w).sessionManager_ = true
  connected : ∀ w, m.state w = SessionState.kConnected.toNat →
    m.sessionPtrs_ w = ⟨true, m.handleAt w⟩

theorem Coherent.serving {m : SessionManager N} {R : Multiset SharedPoolPtr}
    {releases : Fin N → Nat} (h : Coherent m R releases) : Serving m :=
  ⟨h.repr, h.used, h.managed, fun w hw => h.active w (.inr hw)⟩

namespace Relay

variable {m m' m'' : SessionManager N} {packet : List UInt8} {u w : Fin N}
  {waiting : Fin N → List UInt8} {l : List (Fin N)}

/-- The packet was sent to these slots, each with its queue, and nothing else was done. -/
structure Sent (packet : List UInt8) (waiting : Fin N → List UInt8) (targets : List (Fin N))
    (m m' : SessionManager N) : Prop where
  pool : m'.sessionPool_ = m.sessionPool_
  ptrs : m'.sessionPtrs_ = m.sessionPtrs_
  queued : ∀ w ∈ targets, (m'.session w).Queued (Session.queueAfter (waiting w) packet)
  session : ∀ w, w ∉ targets → m'.session w = m.session w

theorem sessionLens_lawful (w : Fin N) : (sessionLens (port : ServerPort _ _ N) w).Lawful where
  set_get m := by
    show m.setSession w (m.session w) = m
    rw [setSession, Function.update_eq_self]
  set_set x y m := setSession_setSession m w y x

theorem Sent.refl : Sent packet waiting [] m m :=
  ⟨rfl, rfl, fun _ hw => absurd hw List.not_mem_nil, fun _ _ => rfl⟩

/-- One more target, before the others. -/
theorem Sent.cons (h : Sent packet waiting [w] m m') (h' : Sent packet waiting l m' m'')
    (hw : w ∉ l) : Sent packet waiting (w :: l) m m'' where
  pool := h'.pool.trans h.pool
  ptrs := h'.ptrs.trans h.ptrs
  queued v hv := by
    rcases List.mem_cons.mp hv with rfl | hv
    · rw [h'.session v hw]
      exact h.queued v List.mem_cons_self
    · exact h'.queued v hv
  session v hv := by
    rw [List.mem_cons, not_or] at hv
    rw [h'.session v hv.2, h.session v (by simpa using hv.1)]

theorem Sent.handleAt (h : Sent packet waiting l m m') : m'.handleAt = m.handleAt := by
  funext w
  rw [SessionManager.handleAt, SessionManager.handleAt, h.pool]

/-- A turn for a handle to send to. -/
theorem wp_sendTo (hN : N < 2 ^ 32) (hptr : m.sessionPtrs_ w = ⟨true, m.handleAt w⟩)
    (hq : (m.session w).Queued (waiting w)) (hobj : packets.size packet ≤ packet.length)
    {post : Unit → SessionManager N → Prop}
    (hpost : ∀ m', Sent packet waiting [w] m m' → post () m') :
    Prog.wp anything (fun _ => False) (sendTo port (send packet) (m.handleAt w)) post m := by
  have hlive : Live (port.manager.get m) w ((ptrLens port w).get m) := hptr
  refine (wp_sendTo_live hN hlive).mpr ?_
  refine Session.wp_sendPacket_alone (sessionLens_lawful w) hq hobj fun b x hx _ _ => ?_
  refine hpost _ ⟨rfl, rfl, fun v hv => ?_, fun v hv => ?_⟩
  · rw [List.mem_singleton.mp hv]
    show ((m.setSession w x).session w).Queued _
    rw [session_setSession]
    exact hx
  · exact Function.update_of_ne (List.ne_of_not_mem_cons hv) _ _

/-- The loop sends once to each slot of its list but that of `sessionHandle`. -/
theorem wp_broadcastLoop (hN : N < 2 ^ 32) {sessionHandle : UInt64} (hnodup : l.Nodup)
    (hptrs : ∀ w ∈ l, m.sessionPtrs_ w = ⟨true, m.handleAt w⟩)
    (hq : ∀ w ∈ l, (m.session w).Queued (waiting w)) (hobj : packets.size packet ≤ packet.length) :
    Prog.wp anything (fun _ => False)
      (broadcastLoop (sendTo port (send packet)) sessionHandle (l.map m.handleAt))
      (fun b m' => b = true ∧
        Sent packet waiting (l.filter fun w => m.handleAt w ≠ sessionHandle) m m') m := by
  induction l generalizing m with
  | nil => exact ⟨rfl, .refl⟩
  | cons w l ih =>
      rw [List.nodup_cons] at hnodup
      have hrest : ∀ v ∈ l, m.sessionPtrs_ v = ⟨true, m.handleAt v⟩ := fun v hv =>
        hptrs v (List.mem_cons_of_mem w hv)
      have hrestq : ∀ v ∈ l, (m.session v).Queued (waiting v) := fun v hv =>
        hq v (List.mem_cons_of_mem w hv)
      rw [List.map_cons, broadcastLoop, List.filter_cons]
      by_cases hskip : m.handleAt w = sessionHandle
      · rw [if_neg (not_not_intro hskip), if_neg (by simp [hskip])]
        exact ih hnodup.2 hrest hrestq
      · rw [if_pos hskip, if_pos (by simpa using hskip), Prog.bind_eq, Prog.wp_bind]
        refine wp_sendTo hN (hptrs w List.mem_cons_self) (hq w List.mem_cons_self) hobj
          fun m₁ h₁ => ?_
        have hloop := ih (m := m₁) hnodup.2
          (fun v hv => by
            rw [h₁.ptrs, h₁.handleAt]
            exact hrest v hv)
          fun v hv => by
            rw [h₁.session v fun hmem => hnodup.1 (List.mem_singleton.mp hmem ▸ hv)]
            exact hrestq v hv
        rw [h₁.handleAt] at hloop
        exact Prog.wp_mono (fun b m' hb => ⟨hb.1, h₁.cons hb.2 fun hmem =>
          hnodup.1 (List.mem_filter.mp hmem).1⟩) hloop

/-- The packet that `HandleC2S_CHAT` makes of one with this handle and this payload. -/
def chat (handle : UInt64) (payload : List UInt8) : List UInt8 :=
  PacketHeader.bytes ⟨UInt16.ofNat (payload.length + 12), S2CPacketId.kChat.toUInt16⟩ ++
    (leBytes 8 handle.toNat ++ payload)

theorem length_chat (handle : UInt64) (payload : List UInt8) :
    (chat handle payload).length = payload.length + 12 := by
  simp only [chat, List.length_append, PacketHeader.length_bytes, length_leBytes]
  omega

/-- Its header counts its bytes in 16 bits. -/
theorem size_chat (handle : UInt64) (payload : List UInt8) :
    packets.size (chat handle payload) = (payload.length + 12) % 2 ^ 16 := by
  rw [packets_size, chat, PacketHeader.ofBytes_bytes_append, UInt16.toNat_ofNat']

theorem sessionHandle_chat (handle : UInt64) (payload : List UInt8) :
    S2CChat.sessionHandle (chat handle payload) = handle.toNat := by
  have hlt := handle.toNat_lt
  rw [S2CChat.sessionHandle, chat, S2CChat.sessionHandleOff,
    List.drop_left' (PacketHeader.length_bytes _), List.take_left' (length_leBytes 8 _),
    ofLeBytes_leBytes, Nat.mod_eq_of_lt (by omega)]

theorem message_chat (handle : UInt64) (payload : List UInt8) :
    S2CChat.message (chat handle payload) = payload := by
  rw [S2CChat.message, chat, ← List.append_assoc, List.drop_left' (by
    rw [List.length_append, PacketHeader.length_bytes, length_leBytes, S2CChat.messageOff])]

/-- A handler's loads from the packet at the front of what is waiting. -/
theorem load_payload {ov : OverlappedEx} {packet rest : List UInt8} (h : ov.Holds (packet ++ rest))
    (h4 : 4 ≤ packet.length) :
    ov.load (ov.readPos_ + 4) (packet.length - 4) = .ok (packet.drop 4) := by
  have hlen : (packet ++ rest).length = packet.length + rest.length := List.length_append
  have hmapped := h.mapped
  rw [OverlappedEx.getSize] at hmapped
  have hslice : ov.buffer_.slice (ov.readPos_ + 4) (packet.length - 4) = packet.drop 4 := by
    rw [← Mirror.take_slice _ _ (show packet.length - 4 ≤ (packet ++ rest).length - 4 by omega),
      ← Mirror.drop_slice _ _ (show 4 ≤ (packet ++ rest).length by omega), h.slice,
      List.drop_append_of_le_length h4, List.take_left' (by rw [List.length_drop])]
  rw [OverlappedEx.load, Mirror.read?_of_le _ (by omega), hslice, Prog.orFault_some]

/-- `HandleC2S_CHAT` sends the packet it makes to every other connected session. -/
theorem wp_handleC2SChat (hN : N < 2 ^ 32) (hm : Serving m)
    (hq : ∀ w, m.state w = SessionState.kConnected.toNat → (m.session w).Queued (waiting w))
    (hu : m.state u ≠ 0) {sent rest : List UInt8}
    (hsent : (m.session u).readOv_.Holds (sent ++ rest)) (h4 : 4 ≤ sent.length)
    (hsize : packets.size sent = sent.length) :
    Prog.wp anything (fun _ => False) (handleC2SChat u)
      (fun b m' => b = true ∧ ∀ v, v ≠ u → m.state v = SessionState.kConnected.toNat →
        (m'.session v).Queued (Session.queueAfter (waiting v)
          (chat (m.session u).handle_ (sent.drop 4)))) m := by
  obtain ⟨b, hb⟩ := hm.repr
  have hstate : ∀ w, w ∈ b.members SessionState.kConnected.toNat ↔
      m.state w = SessionState.kConnected.toNat := fun w => by
    rw [b.mem_members w ⟨SessionState.kConnected.toNat, by decide⟩, state, hb.state]
    exact ⟨fun he => by rw [he], fun he => Fin.ext he⟩
  have hlist : m.sessionPool_.set.getIndicesInState SessionState.kConnected.toNat =
      some ((b.members SessionState.kConnected.toNat).map m.handleAt) :=
    SparseSet.getIndicesInState_spec hN hb ⟨SessionState.kConnected.toNat, by decide⟩
  -- the sender's session, as the handler reads it
  obtain ⟨x, hx⟩ : ∃ x, (sessionLens port u).get m = x := ⟨_, rfl⟩
  have hx' : m.session u = x := hx
  rw [hx'] at hsent ⊢
  have hsize' : (PacketHeader.ofBytes sent).size.toNat = sent.length := hsize
  have hlt := (PacketHeader.ofBytes sent).size.toNat_lt
  have hheader : (x.readOv_.load x.readOv_.readPos_
      PacketHeader.sizeOf).map PacketHeader.ofBytes = .ok (PacketHeader.ofBytes sent) := by
    rw [PacketHeader.sizeOf, hsent.load (by rw [List.length_append]; omega), Except.map,
      List.take_append_of_le_length h4, Session.ofBytes_take h4]
  have hpayload : x.readOv_.load (x.readOv_.readPos_ + PacketHeader.sizeOf)
      (sub64 (PacketHeader.ofBytes sent).size.toNat PacketHeader.sizeOf) = .ok (sent.drop 4) := by
    rw [hsize', PacketHeader.sizeOf, sub64_of_le h4 (by omega)]
    exact load_payload hsent h4
  have hdata : PacketHandler.chatPacket (PacketHeader.ofBytes sent).size x.handle_
      (sent.drop 4) = .ok (chat x.handle_ (sent.drop 4)) := by
    rw [PacketHandler.chatPacket_eq (by omega) _ (by rw [List.length_drop, hsize']), chat, hsize',
      List.length_drop, show sent.length - 4 + 12 = sent.length + 8 by omega]
  have hobj : packets.size (chat x.handle_ (sent.drop 4)) ≤
      (chat x.handle_ (sent.drop 4)).length := by
    rw [size_chat, length_chat]
    exact Nat.mod_le _ _
  generalize chat x.handle_ (sent.drop 4) = packet at hdata hobj ⊢
  have hmanaged : (if x.sessionManager_ = true then Except.ok () else
      Except.error Fault.nullPointer) = .ok () := if_pos (hx' ▸ hm.managed u hu)
  unfold handleC2SChat PacketHandler.handleC2SChat
  rw [Prog.bind_eq, Prog.wp_bind, Prog.wp_lens_read, hx, Prog.bind_eq, Prog.wp_bind]
  refine (Prog.wp_lens_view (by simpa only [hx] using hheader)).mpr ?_
  rw [Prog.bind_eq, Prog.wp_bind, Prog.wp_lens_read, hx, Prog.bind_eq, Prog.wp_bind]
  rw [Prog.wp_lens_view (b := sent.drop 4) (by simpa only [hx] using hpayload), Prog.bind_eq,
    Prog.wp_bind, hdata, Prog.wp_lift_ok, Prog.bind_eq, Prog.wp_bind]
  beta_reduce
  rw [Prog.bind_eq, Prog.wp_bind]
  refine (Prog.wp_lens_view (by simpa only [hx] using hmanaged)).mpr ?_
  unfold broadcast SparsePool.getIndicesInState
  rw [Prog.bind_eq, Prog.wp_bind, Prog.wp_lens_view
    (b := (b.members SessionState.kConnected.toNat).map m.handleAt)]
  · refine Prog.wp_mono ?_ (@wp_broadcastLoop _ _ _ waiting _ hN _ (b.nodup_members _)
      (fun w hw => hm.connected w ((hstate w).mp hw)) (fun w hw => hq w ((hstate w).mp hw)) hobj)
    rintro _ m' ⟨rfl, hsent'⟩
    refine ⟨rfl, fun v hvu hv => hsent'.queued v (List.mem_filter.mpr ⟨(hstate v).mpr hv, ?_⟩)⟩
    have hu' := hm.used u hu
    rw [hx'] at hu'
    simpa [hu'] using fun he => hvu (handleAt_inj hN m he)
  · show Prog.orFault _ (m.sessionPool_.set.getIndicesInState _) = _
    rw [hlist]
    rfl

end Relay

/-- The queue of a session holds one packet more, and nothing else is new: a chat message with
this handle and this payload, when it is cut off by the size in its header. -/
def Receives (waiting : List UInt8) (handle : UInt64) (payload : List UInt8) (s : Session) : Prop :=
  ∃ p, s.Queued (waiting ++ p) ∧ packets.size p = p.length ∧
    packets.size p = payload.length + 12 ∧
    (PacketHeader.ofBytes p).id = S2CPacketId.kChat.toUInt16 ∧
    S2CChat.sessionHandle p = handle.toNat ∧ S2CChat.message p = payload

section Relays

variable {m : SessionManager N} {waiting : Fin N → List UInt8} {u v : Fin N}
  {packet rest : List UInt8}

/-- Where the size fits 16 bits, the message arrives. -/
theorem relays_of_short (hN : N < 2 ^ 32) (hm : Serving m)
    (hq : ∀ w, m.state w = SessionState.kConnected.toNat → (m.session w).Queued (waiting w))
    (hu : m.state u ≠ 0) (hvu : v ≠ u) (hv : m.state v = SessionState.kConnected.toNat)
    (hpacket : (m.session u).readOv_.Holds (packet ++ rest)) (h4 : 4 ≤ packet.length)
    (hsize : packets.size packet = packet.length)
    (hroom : (waiting v).length + (packet.length + 8) % 2 ^ 16 ≤ OverlappedEx.getSize)
    (hshort : packet.length ≤ 65527) {r : Except Fault (Bool × SessionManager N)}
    (hr : Prog.Exec Relay.anything (Relay.handleC2SChat u) m r) :
    ∃ m', r = .ok (true, m') ∧
      Receives (waiting v) (m.session u).handle_ (packet.drop 4) (m'.session v) := by
  have hmeets := hr.meets (Relay.wp_handleC2SChat hN hm hq hu hpacket h4 hsize)
  have hsize' := Relay.size_chat (m.session u).handle_ (packet.drop 4)
  have hlen' := Relay.length_chat (m.session u).handle_ (packet.drop 4)
  rw [List.length_drop] at hsize' hlen'
  cases r with
  | error e => exact hmeets.elim
  | ok r =>
      obtain ⟨b, m'⟩ := r
      obtain ⟨rfl, hqueued⟩ := hmeets
      refine ⟨m', rfl, Relay.chat (m.session u).handle_ (packet.drop 4), ?_, by omega, ?_,
        by rw [Relay.chat, PacketHeader.ofBytes_bytes_append], Relay.sessionHandle_chat _ _,
        Relay.message_chat _ _⟩
      · have hqv := hqueued v hvu hv
        rwa [Session.queueAfter, if_pos (by omega), List.take_of_length_le (by omega)] at hqv
      · rw [List.length_drop]
        omega

/-- Beyond, what joins the queue is shorter than any chat packet. -/
theorem not_relays_of_long (hN : N < 2 ^ 32) (hm : Serving m)
    (hq : ∀ w, m.state w = SessionState.kConnected.toNat → (m.session w).Queued (waiting w))
    (hu : m.state u ≠ 0) (hvu : v ≠ u) (hv : m.state v = SessionState.kConnected.toNat)
    (hpacket : (m.session u).readOv_.Holds (packet ++ rest)) (h4 : 4 ≤ packet.length)
    (hsize : packets.size packet = packet.length)
    (hroom : (waiting v).length + (packet.length + 8) % 2 ^ 16 ≤ OverlappedEx.getSize)
    (hlong : 65527 < packet.length) :
    ∃ m', Prog.Exec Relay.anything (Relay.handleC2SChat u) m (.ok (true, m')) ∧
      ¬ Receives (waiting v) (m.session u).handle_ (packet.drop 4) (m'.session v) := by
  obtain ⟨b, m', hexec, rfl, hqueued⟩ := Prog.exists_ok Relay.exists_answer
    (Relay.wp_handleC2SChat hN hm hq hu hpacket h4 hsize)
  refine ⟨m', hexec, ?_⟩
  rintro ⟨p, hp, hcut, hplen, -⟩
  have hlt : packet.length < 2 ^ 16 := hsize ▸ (PacketHeader.ofBytes packet).size.toNat_lt
  have hsize' := Relay.size_chat (m.session u).handle_ (packet.drop 4)
  rw [List.length_drop] at hsize' hplen
  have hqv := hqueued v hvu hv
  rw [Session.queueAfter, if_pos (by omega)] at hqv
  have hsame := List.append_cancel_left (hp.holds.inj hqv.holds)
  have hle := List.length_take_le (packets.size (Relay.chat (m.session u).handle_ (packet.drop 4)))
    (Relay.chat (m.session u).handle_ (packet.drop 4))
  rw [← hsame] at hle
  omega

end Relays

/-- **The chat relay** puts the message that was meant into the queue of another connected
session with room for it exactly when the relayed packet's size fits 16 bits. -/
theorem relays_iff (hN : N < 2 ^ 32) (m : SessionManager N) (hm : Serving m)
    (waiting : Fin N → List UInt8)
    (hq : ∀ w, m.state w = SessionState.kConnected.toNat → (m.session w).Queued (waiting w))
    (u v : Fin N) (hu : m.state u ≠ 0) (hvu : v ≠ u)
    (hv : m.state v = SessionState.kConnected.toNat) (packet rest : List UInt8)
    (hpacket : (m.session u).readOv_.Holds (packet ++ rest)) (h4 : 4 ≤ packet.length)
    (hsize : packets.size packet = packet.length)
    (hroom : (waiting v).length + (packet.length + 8) % 2 ^ 16 ≤ OverlappedEx.getSize) :
    (∀ r, Prog.Exec Relay.anything (Relay.handleC2SChat u) m r → ∃ m', r = .ok (true, m') ∧
      Receives (waiting v) (m.session u).handle_ (packet.drop 4) (m'.session v)) ↔
      packet.length ≤ 65527 := by
  constructor
  · intro h
    by_contra hlong
    obtain ⟨m', hexec, hnot⟩ := not_relays_of_long hN hm hq hu hvu hv hpacket h4 hsize hroom
      (not_le.mp hlong)
    obtain ⟨m'', he, hreceives⟩ := h _ hexec
    obtain ⟨-, rfl⟩ := Prod.mk.inj (Except.ok.inj he)
    exact hnot hreceives
  · intro hshort r hr
    exact relays_of_short hN hm hq hu hvu hv hpacket h4 hsize hroom hshort hr

/-- A session's own buffers are no business of the manager's. -/
theorem Serving.setSession {m : SessionManager N} (hm : Serving m) (u : Fin N) {x : Session}
    (hhandle : x.handle_ = (m.session u).handle_)
    (hmanager : x.sessionManager_ = (m.session u).sessionManager_) : Serving (m.setSession u x) where
  repr := hm.repr
  used w hw := by
    have hused := hm.used w hw
    change (Function.update m.session u x w).handle_ = m.handleAt w
    rcases eq_or_ne w u with rfl | hwu
    · rw [Function.update_self, hhandle, hused]
    · rw [Function.update_of_ne hwu, hused]
  managed w hw := by
    have hmanaged := hm.managed w hw
    change (Function.update m.session u x w).sessionManager_ = true
    rcases eq_or_ne w u with rfl | hwu
    · rw [Function.update_self, hmanager, hmanaged]
    · rw [Function.update_of_ne hwu, hmanaged]
  connected := hm.connected

/-- Two sessions are created and connected, and the first has received a packet. -/
theorem Relay.exists_pair (packet : List UInt8) (hlen : packet.length ≤ OverlappedEx.getSize) :
    ∃ m : SessionManager 2, Serving m ∧ m.state 0 = SessionState.kConnected.toNat ∧
      m.state 1 = SessionState.kConnected.toNat ∧
      (m.session 0).readOv_.Holds (packet ++ []) ∧ ∀ w, (m.session w).Queued [] := by
  have hplay : ((Holding.play ⟨.new 2, []⟩
      [.createSession, .createSession, .connectSession 0, .connectSession 1]).map fun s =>
        (s.manager.state 0, s.manager.state 1,
          ((s.manager.session 0).writeOv_.readPos_, (s.manager.session 0).writeOv_.writePos_),
          (s.manager.session 1).writeOv_.readPos_, (s.manager.session 1).writeOv_.writePos_)) =
      some (2, 2, (0, 0), 0, 0) := by decide +kernel
  obtain ⟨s, hs, hvals⟩ := Option.map_eq_some_iff.mp hplay
  simp only [Prod.mk.injEq] at hvals
  obtain ⟨h0, h1, ⟨hr0, hw0⟩, hr1, hw1⟩ := hvals
  obtain ⟨releases, hreach⟩ := Holding.Reachable.start.play (fun w => by simp) hs
  have hempty : ∀ x : Session, x.writeOv_.readPos_ = 0 → x.writeOv_.writePos_ = 0 →
      x.Queued [] := fun x hr hw =>
    ⟨.nil (hw.trans hr.symm) (by rw [hr]; exact Nat.zero_le _), by rw [hr]; decide, Nat.zero_le _⟩
  have hfull := (OverlappedEx.Holds.nil rfl (Nat.zero_le _) :
    ({} : OverlappedEx).Holds []).append packet
    (by rw [List.length_nil, Nat.zero_add]; exact hlen)
    (by simp only [List.length_nil, OverlappedEx.getSize] at hlen ⊢; omega)
  generalize OverlappedEx.produce _ _ = ov at hfull
  refine ⟨s.manager.setSession 0 { s.manager.session 0 with readOv_ := ov },
    (Coherent.serving (hreach.coheres (by decide))).setSession 0 rfl rfl, h0, h1, ?_, fun w => ?_⟩
  · rw [session_setSession, List.append_nil]
    exact hfull
  · obtain rfl | rfl : w = 0 ∨ w = 1 := by omega
    · exact hempty _ hr0 hw0
    · exact hempty _ hr1 hw1

/-- A message of two bytes arrives. -/
theorem relays_iff_pair : ∃ (m m' : SessionManager 2),
    Prog.Exec Relay.anything (Relay.handleC2SChat 0) m (.ok (true, m')) ∧
      Receives [] (m.session 0).handle_ [104, 105] (m'.session 1) := by
  obtain ⟨m, hm, h0, h1, hpacket, hq⟩ := Relay.exists_pair [6, 0, 2, 0, 104, 105] (by decide)
  have hiff := relays_iff (by decide) m hm (fun _ => []) (fun w _ => hq w) 0 1 (by simp [h0, SessionState.toNat])
    (by decide) h1 [6, 0, 2, 0, 104, 105] [] hpacket (by decide) (by decide) (by decide)
  obtain ⟨r, hr⟩ := Prog.exists_exec Relay.exists_answer (Relay.handleC2SChat 0) m
  obtain ⟨m', rfl, hreceives⟩ := hiff.mpr (by decide) r hr
  exact ⟨m, m', hr, hreceives⟩

/-- A message of 65524 bytes: the relayed packet would fill the empty queue, and none of it is
queued. -/
theorem relay_truncates : ¬ ∀ m : SessionManager 2, Serving m → ∀ waiting : Fin 2 → List UInt8,
    (∀ w, m.state w = SessionState.kConnected.toNat → (m.session w).Queued (waiting w)) →
    ∀ u v, m.state u ≠ 0 → v ≠ u → m.state v = SessionState.kConnected.toNat →
    ∀ packet rest : List UInt8, (m.session u).readOv_.Holds (packet ++ rest) → 4 ≤ packet.length →
    packets.size packet = packet.length →
    (waiting v).length + (packet.length + 8) ≤ OverlappedEx.getSize →
    ∀ r, Prog.Exec Relay.anything (Relay.handleC2SChat u) m r → ∃ m', r = .ok (true, m') ∧
      Receives (waiting v) (m.session u).handle_ (packet.drop 4) (m'.session v) := by
  intro hall
  generalize hp : (PacketHeader.bytes ⟨65528, 2⟩ ++ List.replicate 65524 0 : List UInt8) = packet
  have hlen : packet.length = 65528 := by
    rw [← hp, List.length_append, PacketHeader.length_bytes, List.length_replicate]
  have hsize : packets.size packet = packet.length := by
    rw [hlen, ← hp, packets_size, PacketHeader.ofBytes_bytes_append]
    rfl
  obtain ⟨m, hm, h0, h1, hpacket, hq⟩ := Relay.exists_pair packet (by rw [hlen]; decide)
  have hu : m.state 0 ≠ 0 := by simp [h0, SessionState.toNat]
  obtain ⟨m', hexec, hnot⟩ := @not_relays_of_long _ m (fun _ => []) 0 1 packet [] (by decide) hm
    (fun w _ => hq w) hu (by decide) h1 hpacket (by omega) hsize
    (by rw [hlen]; decide) (by omega)
  obtain ⟨m'', he, hreceives⟩ := hall m hm (fun _ => []) (fun w _ => hq w) 0 1 hu (by decide) h1
    packet [] hpacket (by omega) hsize (by rw [hlen]; decide) _ hexec
  obtain ⟨-, rfl⟩ := Prod.mk.inj (Except.ok.inj he)
  exact hnot hreceives

end SessionManager

end ServerStudy
