import ServerStudy.Session.Isolation.Completions

/-!
# ServerStudy.Session.Isolation.Packets

The bytes of the other clients.

* `safely_handleC2SMove`, `safely_handleC2SChat`, `safely_execute` — a proper packet finds its
  handler, everything the handler reads is mapped, and what it relays is harmless;
* `safely_recv` — `OnRead` takes its client's `readOv_` on to the next receive;
* `sound` — every operation keeps the discipline.
-/

namespace ServerStudy

namespace Isolation

variable {α β : Type} {s s' : Neighbour} {R F r : Multiset Duty} {reg : Other}

/-! ## the packets of the others -/

variable {ov : OverlappedEx} {rest : List UInt8}

/-- What lies within the two mappings can be read. -/
theorem exists_load (ov : OverlappedEx) (off n : Nat) (h : off + n ≤ 2 * OverlappedEx.getSize) :
    ∃ bs, ov.load off n = .ok bs ∧ bs.length = n := by
  refine ⟨ov.buffer_.slice off n, ?_, Mirror.length_slice _ _ _⟩
  rw [OverlappedEx.load, Mirror.read?_of_le _ h, Prog.orFault_some]

/-- The header at the read position. -/
theorem load_header (h : ov.Holds rest) (h4 : 4 ≤ rest.length) :
    (ov.load ov.readPos_ PacketHeader.sizeOf).map PacketHeader.ofBytes = .ok (.ofBytes rest) := by
  rw [PacketHeader.sizeOf, h.load h4, Except.map, Session.ofBytes_take h4]

theorem size_move (header : PacketHeader) (handle : UInt64) (x y : List UInt8) :
    packets.size (S2CMove.bytes header handle x y) = header.size.toNat := by
  simp only [packets_size, S2CMove.bytes, List.append_assoc, PacketHeader.ofBytes_bytes_append]

/-- The relayed chat is 8 bytes longer than the packet, but its header keeps 16 bits of that. -/
theorem exists_chatPacket {size : UInt16} (hsize : 4 ≤ size.toNat) (handle : UInt64)
    {payload : List UInt8} (hpayload : payload.length = size.toNat - 4) :
    ∃ data, PacketHandler.chatPacket size handle payload = .ok data ∧
      data.length = size.toNat + 8 ∧ packets.size data = (size.toNat + 8) % 65536 := by
  refine ⟨_, PacketHandler.chatPacket_eq hsize handle hpayload, ?_, ?_⟩
  · rw [List.length_append, PacketHeader.length_bytes, List.length_append, length_leBytes, hpayload]
    omega
  · rw [packets_size, PacketHeader.ofBytes_bytes_append, UInt16.toNat_ofNat']

/-- A read of the thread's own session. -/
theorem safely_view {f : Session → Except Fault β} {b : β} (hf : f reg.session = .ok b)
    (hpost : post b reg r) : Safely (own.view f) post reg r := by
  refine ⟨trivial, fun s F _ hi => ?_⟩
  simp only [own, hf]
  exact fun _ => ⟨.same rfl rfl rfl, r, hi, trivial, hpost⟩

/-- Where a pointer was lost the run is over. -/
theorem safely_pass {post : Unit → Other → Multiset Duty → Prop} (hpost : post () reg r) :
    Safely pass post reg r := by
  refine Safe.bind (safely_query fun _ found _ => ?_)
  cases found with
  | true => exact ⟨trivial, hpost⟩
  | false =>
      refine Safe.bind ⟨trivial, fun s _ _ _ hg => ?_⟩
      exact absurd hg.found (Nat.succ_ne_zero s.lost)

theorem safely_relay {header : PacketHeader} {packet : List UInt8} {sessionHandle : UInt64}
    (hobj : packets.size packet ≤ packet.length) (hzero : packets.size packet = 0 → LongChat header)
    {post : Bool → Other → Multiset Duty → Prop} (hpost : ∀ b, post b reg r) :
    Safely (relay header packet sessionHandle) post reg r := by
  have hafter : ∀ {reg r} {post : Bool → Other → Multiset Duty → Prop}, post true reg r →
      Safely (pass.bind fun _ => .done true) post reg r := fun h =>
    Safe.bind (safely_pass ⟨trivial, h⟩)
  refine Safe.bind (safely_pass (Safe.bind (safely_query fun _ reaches _ => ?_)))
  cases reaches with
  | false => exact hafter (hpost _)
  | true =>
      refine Safe.bind (safely_send hobj (fun header' h hsize => ?_) (fun h => ?_) ?_ fun _ => ?_)
      · exact Option.some.inj h ▸ hzero hsize
      · exact absurd h (Option.some_ne_none header)
      · exact hafter (hpost _)
      · exact hafter (hpost _)

theorem safely_handleC2SMove {header : PacketHeader} {off : Nat}
    (hmapped : off + 12 ≤ 2 * OverlappedEx.getSize)
    {post : Bool → Other → Multiset Duty → Prop} (hpost : ∀ b, post b reg r) :
    Safely (PacketHandler.handleC2SMove own (relay header) off) post reg r := by
  obtain ⟨x, hx, hxlen⟩ := exists_load reg.session.readOv_ (off + 4) 4 (by omega)
  obtain ⟨y, hy, hylen⟩ := exists_load reg.session.readOv_ (off + 8) 4 (by omega)
  refine Safe.bind (safely_read fun handle => Safe.bind (safely_view hx ?_))
  refine Safe.bind (safely_view hy (Safe.bind (safely_relay ?_ (fun h => ?_) fun b => ?_)))
  · rw [size_move]
    simp only [S2CMove.bytes, List.length_append, PacketHeader.length_bytes, length_leBytes,
      hxlen, hylen]
    decide
  · rw [size_move] at h
    exact absurd h (by decide)
  · cases b with
    | false => exact ⟨trivial, hpost _⟩
    | true => exact ⟨trivial, hpost _⟩

theorem safely_handleC2SChat {header : PacketHeader} {off : Nat}
    (hheader : (reg.session.readOv_.load off PacketHeader.sizeOf).map PacketHeader.ofBytes =
      .ok header)
    (hid : header.id.toNat = C2SPacketId.kChat.toNat) (h4 : 4 ≤ header.size.toNat)
    (hmapped : off + header.size.toNat ≤ 2 * OverlappedEx.getSize)
    {post : Bool → Other → Multiset Duty → Prop} (hpost : ∀ b, post b reg r) :
    Safely (PacketHandler.handleC2SChat own (relay header) off) post reg r := by
  have hlt := header.size.toNat_lt
  have hsub : sub64 header.size.toNat PacketHeader.sizeOf = header.size.toNat - 4 :=
    sub64_of_le h4 (by omega)
  obtain ⟨payload, hpayload, hlen⟩ := exists_load reg.session.readOv_
    (off + PacketHeader.sizeOf) (header.size.toNat - 4) (by
      rw [PacketHeader.sizeOf]
      omega)
  refine Safe.bind (safely_view hheader (Safe.bind (safely_read fun handle => ?_)))
  refine Safe.bind (safely_view (b := payload) (by rw [hsub]; exact hpayload) ?_)
  obtain ⟨data, hdata, hdlen, hsize⟩ := exists_chatPacket h4 handle hlen
  rw [hdata]
  refine Safe.bind ⟨trivial, fun s F _ hi _ => ⟨.same rfl rfl rfl, r, hi, trivial, ?_⟩⟩
  refine Safe.bind (safely_relay ?_ (fun h => ⟨hid, ?_⟩) fun b => ?_)
  · rw [hsize, hdlen]
    exact Nat.mod_le _ _
  · omega
  · cases b with
    | false => exact ⟨trivial, hpost _⟩
    | true => exact ⟨trivial, hpost _⟩

/-- A proper packet finds its handler, and its relay keeps the session sane. -/
theorem safely_execute (hov : reg.session.readOv_ = ov) (h : ov.Waits rest)
    (h4 : 4 ≤ packets.size rest) (hle : packets.size rest ≤ rest.length)
    {post : Bool → Other → Multiset Duty → Prop} (hpost : ∀ b, post b reg r) :
    Safely (execute ov.readPos_) post reg r := by
  subst hov
  have hheader := load_header h.holds (h4.trans hle)
  rw [packets_size] at h4 hle
  refine Safe.bind (safely_view hheader (Safe.bind ⟨trivial, fun s F _ hi hg => ?_⟩))
  have hproper := hg.proper _ List.mem_cons_self
  refine ⟨.same rfl rfl rfl, r, ⟨hi.1, hi.2.congr rfl rfl rfl rfl⟩, trivial,
    Safe.bind (safely_view hheader ?_)⟩
  rw [PacketHandler.handlers_get?]
  rcases hproper.registered with hid | hid
  · have hmove : (PacketHeader.ofBytes rest).id.toNat = 1 := hid
    rw [if_neg (by rw [hmove]; decide), if_pos hmove]
    exact safely_handleC2SMove (hproper.mapped hid) hpost
  · have hchat : (PacketHeader.ofBytes rest).id.toNat = 2 := hid
    have hmapped := h.holds.mapped
    rw [if_neg (by rw [hchat]; decide), if_neg (by rw [hchat]; decide), if_pos hchat]
    exact safely_handleC2SChat hheader hid h4 (by omega) hpost

/-- A thread that handles its client's bytes has their `readOv_` to itself. -/
theorem reader_own : Session.Reader discipline successful ownPort
    (fun ov reg r => reg.session.readOv_ = ov ∧ reg.receiving = false ∧ r = 0) := by
  refine ⟨?_, ?_, ?_, ?_⟩
  · rintro β f ov reg r ⟨hov, hidle, rfl⟩
    exact ⟨trivial, fun s F _ hi _ => ⟨.same rfl rfl rfl, _, hi, trivial,
      ⟨reg.session, hov, rfl⟩, hov, hidle, rfl⟩⟩
  · rintro β f b ov reg r ⟨hov, hidle, rfl⟩ hf
    exact safely_view (hf _ hov) ⟨rfl, hov, hidle, rfl⟩
  · rintro β f b ov ov' reg r ⟨hov, hidle, rfl⟩ hf
    refine ⟨trivial, fun s F _ hi => ?_⟩
    simp only [ownPort, own, hf _ hov]
    exact fun _ => ⟨.same rfl rfl rfl, _, hi, trivial, rfl, rfl, hidle, rfl⟩
  · rintro f ov ov' reg r ⟨hov, hidle, rfl⟩ hf
    refine ⟨trivial, fun s F _ hi _ => ?_⟩
    simp only [ownPort, own, hf _ hov]
    exact ⟨.same rfl rfl rfl, _, hi, trivial, rfl, hidle, rfl⟩

/-- Its next receive is for the room there is, or was refused. -/
theorem safely_wsaRecvOwn (hov : reg.session.readOv_ = ov) (hidle : reg.receiving = false)
    (h : ov.Awaits rest) :
    Safely (wsaRecvOwn ov.wsaBuf_) (fun result reg' r' =>
      if result.posted then reg'.Ready ∧ r' = 0
      else True ∧ reg'.session.readOv_ = ov ∧ reg'.receiving = false ∧ r' = 0) reg 0 := by
  refine Safe.bind (safely_query fun _ result _ => ?_)
  split_ifs with hposted
  · refine ⟨trivial, fun s F _ hi _ => ⟨.same rfl rfl rfl, 0, hi, trivial, ?_⟩⟩
    dsimp only
    rw [if_pos hposted]
    exact ⟨fun _ => ⟨rest, hov.symm ▸ h⟩, rfl⟩
  · refine ⟨trivial, ?_⟩
    dsimp only
    rw [if_neg hposted]
    exact ⟨trivial, hov, hidle, rfl⟩

theorem safely_disconnectLockedOwn {post : Option Bool → Other → Multiset Duty → Prop}
    (hpost : ∀ a, post a reg r) : Safely (Session.disconnectLocked ownPort) post reg r := by
  refine Safe.atomically trivial fun s F _ hi => ?_
  simp only [ownPort, Prog.bind_eq, Prog.wp_atomically, Prog.wp_bind, Prog.wp_lens_read,
    Prog.wp_query, Prog.wp_ite, Prog.pure_eq, Prog.wp_done]
  intro state _
  split_ifs
  · intro done _
    split_ifs
    all_goals exact fun _ => ⟨.same rfl rfl rfl, r, hi, trivial, hpost _⟩
  all_goals exact fun _ => ⟨.same rfl rfl rfl, r, hi, trivial, hpost _⟩

/-- Its own disconnection is no concern of the session. -/
theorem safely_disconnectOwn (hidle : reg.receiving = false) :
    Safely ((Session.disconnect ownPort).bind fun _ => .done ())
      (fun _ reg' r' => reg'.Ready ∧ r' = 0) reg 0 := by
  have hready : ∀ reg' : Other, reg'.receiving = false → reg'.Ready := fun reg' h ht =>
    Bool.noConfusion (h.symm.trans ht)
  refine Safe.bind (Safe.bind (safely_disconnectLockedOwn fun result => ?_))
  cases result with
  | some result => exact ⟨trivial, trivial, hready _ hidle, rfl⟩
  | none =>
      refine Safe.bind ⟨trivial, fun s F _ hi _ => ⟨.same rfl rfl rfl, 0, hi, trivial, ?_⟩⟩
      refine Safe.bind (safely_read fun handle => Safe.bind ⟨trivial, ?_⟩)
      refine Safe.bind (safely_query fun _ x _ => ?_)
      obtain ⟨result, errorCode⟩ := x
      dsimp only
      split_ifs
      all_goals exact ⟨trivial, trivial, hready _ hidle, rfl⟩

/-- Dequeuing a receive gives the thread the client's bytes. -/
theorem safely_dequeueOwn {chunk : List UInt8} (hready : reg.Ready)
    (hreceiving : reg.receiving = true) (hlen : chunk.length ≤ reg.session.readOv_.wsaBuf_.len)
    {post : Unit → Other → Multiset Duty → Prop}
    (hpost : ∀ reg' rest, reg'.receiving = false →
      (reg'.session.readOv_.produce chunk.length).Waits rest → post () reg' 0) :
    Safely (dequeueOwn chunk) post reg 0 := by
  obtain ⟨rest, hawaits⟩ := hready hreceiving
  exact ⟨trivial, fun s F _ hi _ => ⟨.same rfl rfl rfl, 0, hi, trivial,
    hpost _ _ rfl (hawaits.received hlen)⟩⟩

/-- The bytes of another client keep the session sane. -/
theorem safely_recv {chunk : List UInt8} (hready : reg.Ready) (hreceiving : reg.receiving = true)
    (hlen : chunk.length ≤ reg.session.readOv_.wsaBuf_.len) :
    Safely (prog (.recv chunk)) (fun _ reg' r' => reg'.Ready ∧ r' = 0) reg 0 := by
  refine Safe.bind (safely_dequeueOwn hready hreceiving hlen fun reg rest hidle h => ?_)
  simp only [dispatchOwn, IocpCore.dispatchBy]
  split_ifs
  · exact safely_disconnectOwn hidle
  have hrecv : ∀ {ov : OverlappedEx} {rest : List UInt8} {reg : Other} {r : Multiset Duty},
      (reg.session.readOv_ = ov ∧ reg.receiving = false ∧ r = 0) → ov.Awaits rest →
      Safely (ownPort.wsaRecv ov.wsaBuf_) (fun result reg' r' =>
        if result.posted then reg'.Ready ∧ r' = 0
        else True ∧ reg'.session.readOv_ = ov ∧ reg'.receiving = false ∧ r' = 0) reg r := by
    rintro ov rest reg r ⟨hov, hidle, rfl⟩ h
    exact safely_wsaRecvOwn hov hidle h
  refine Safe.bind ⟨trivial, Safe.bind ?_⟩
  refine Safe.mono (fun _ h => h) (fun b reg r hb => ?_) (reader_own.safe_onRead (fun _ _ => rfl)
    (fun _ => rfl) hrecv (fun {ov rest reg r} hI hwaits h4 hle => ?_) ⟨rfl, hidle, rfl⟩ h)
  · cases b with
    | true => exact ⟨trivial, hb⟩
    | false =>
        obtain ⟨ov, -, hidle, rfl⟩ := hb
        exact safely_disconnectOwn hidle
  · exact safely_execute hI.1 hwaits h4 hle fun _ => hI

/-- Every operation keeps the discipline. -/
theorem sound : discipline.Sound successful := by
  rintro op l r hcan ⟨hready, rfl⟩
  cases op with
  | accept =>
      exact Safe.bind (safely_dequeueAccept ⟨trivial, hready, rfl⟩ (leaves_accept _ hready))
  | sent i n =>
      exact Safe.bind (safely_dequeueSend ⟨trivial, hready, rfl⟩ fun hn => leaves_sent hn _ hready)
  | heard chunk =>
      exact Safe.bind (safely_dequeueRecv ⟨trivial, hready, rfl⟩
        fun _ _ h => leaves_heard h _ hready)
  | recv chunk =>
      obtain ⟨hreceiving, hlen⟩ := hcan chunk rfl
      exact safely_recv hready hreceiving hlen

end Isolation

end ServerStudy
