import ServerStudy.Session.Stream

/-!
# ServerStudy.Session.Bounds

The receive buffer never fills up, and nothing outside its two mappings is
read, handed to a handler or handed to the kernel.

A `Watched` session keeps a log of every value it had, every frame executed and
every region posted.  Meanwhile the other threads do what they like to it,
except to `readOv_`, which belongs to whoever runs `OnRead`.

* `Event.Safe` — what each of these has to do with the two positions;
* `Inside`, `Receiving` — what holds in between;
* `stays_inside` — in every reachable state.
-/

namespace ServerStudy

/-! ## a session and its log -/

/-- Something done to a session, and the session at that time. -/
inductive Event where
  /-- it was written to -/
  | assigned (old new : Session)
  /-- `PacketHandler::Execute` was called on the header at an offset -/
  | executed (s : Session) (off : Nat)
  /-- `WSARecv` was called -/
  | posted (s : Session) (wsaBuf : WsaBuf)

/-- What the other threads make of a session. -/
inductive Others : Type → Type where
  | meanwhile : Others Session

/-- A session, and what was done to it. -/
structure Watched where
  session : Session
  log : List Event := []

namespace Watched

open Session OverlappedEx

/-- The calls of the session, and the other threads. -/
abbrev Call (β : Type) : Type := SessionCall β ⊕ Others β

/-- The session of a `Watched`; each time it is written to is logged. -/
def self : Lens Watched Session where
  get s := s.session
  set session s := ⟨session, s.log ++ [.assigned s.session session]⟩
  get_set _ _ := rfl

/-- Log an event. -/
def note (event : Session → Event) : Prog Watched Call Fault Unit :=
  Prog.modify fun s => { s with log := s.log ++ [event s.session] }

/-- The other threads leave `readOv_` alone. -/
def meanwhile : Prog Watched Call Fault Unit := do
  let t ← Prog.query (.inr .meanwhile)
  self.modify fun s => { t with readOv_ := s.readOv_ }

/-- `sessionPtr_` is assigned or reset; whatever else that does to the session. -/
def repoint : Ov → Prog Watched Call Fault Unit
  | .read => do
    let t ← Prog.query (.inr .meanwhile)
    self.modify fun s => { t with readOv_ := { s.readOv_ with sessionPtr_ := t.readOv_.sessionPtr_ } }
  | _ => meanwhile

/-- A handler: it gets the packet at an offset, and says whether it succeeded. -/
def call (off : Nat) : Prog Watched Call Fault Bool := do
  let header ← self.view fun s => (s.readOv_.load off PacketHeader.sizeOf).map PacketHeader.ofBytes
  let packet ← self.view fun s => s.readOv_.load off header.size.toNat
  meanwhile
  Prog.query (.inl (.handle packet))

/-- The session with its environment. -/
def port : SessionPort Watched Call where
  self := self
  assignSessionPtr ov _ := repoint ov
  resetSessionPtr ov := repoint ov
  getState handle := Prog.query (.inl (.getState handle))
  setState handle newState := Prog.query (.inl (.setState handle newState))
  connectSession handle := Prog.query (.inl (.connectSession handle))
  disconnectSession handle := Prog.query (.inl (.disconnectSession handle))
  execute off := do
    note fun s => .executed s off
    PacketHandler.execute self (PacketHandler.handlers call call) off
  wsaRecv wsaBuf := do
    note fun s => .posted s wsaBuf
    Prog.query (.inl (.wsaRecv wsaBuf))
  wsaSend wsaBuf := Prog.query (.inl (.wsaSend wsaBuf))
  disconnectEx := Prog.query (.inl .disconnectEx)

/-- Anything may be answered. -/
def anything : Answers Watched Call := fun _ _ _ _ => True

/-- The kernel fills the posted region with `chunk`. -/
def deliver (chunk : List UInt8) (s : Watched) : Watched :=
  { s with
    session.readOv_.buffer_ :=
      s.session.readOv_.buffer_.write s.session.readOv_.wsaBuf_.buf chunk }

/-- `OnRead` of a chunk, once it has moved `writePos_`. -/
def received (chunk : List UInt8) (s : Watched) : Watched :=
  self.set { (deliver chunk s).session with
    readOv_ := (deliver chunk s).session.readOv_.produce chunk.length } (deliver chunk s)

/-! ## what has to hold -/

/-- The two positions, at any time. -/
structure Bounded (ov : OverlappedEx) : Prop where
  ordered : ov.readPos_ ≤ ov.writePos_
  fits : ov.writePos_ ≤ ov.readPos_ + getSize
  mapped : ov.writePos_ ≤ 2 * getSize

/-- The buffer and the positions are left alone. -/
structure SameRing (ov ov' : OverlappedEx) : Prop where
  buffer : ov'.buffer_ = ov.buffer_
  readPos : ov'.readPos_ = ov.readPos_
  writePos : ov'.writePos_ = ov.writePos_

/-- How the two positions move: without wrapping around in 64 bits. -/
inductive Moves (ov ov' : OverlappedEx) : Prop where
  | stays (hr : ov'.readPos_ = ov.readPos_) (hw : ov'.writePos_ = ov.writePos_)
  | receives (n : Nat) (hr : ov'.readPos_ = ov.readPos_) (hw : ov'.writePos_ = ov.writePos_ + n)
  | parses (n : Nat) (hr : ov'.readPos_ = ov.readPos_ + n) (hw : ov'.writePos_ = ov.writePos_)
  | rewinds (hr : ov.readPos_ = ov'.readPos_ + getSize) (hw : ov.writePos_ = ov'.writePos_ + getSize)

/-- The size in the header at an offset. -/
def sizeAt (s : Session) (off : Nat) : Nat :=
  (PacketHeader.ofBytes (s.readOv_.buffer_.slice off PacketHeader.sizeOf)).size.toNat

/-- What has to hold of each event: a frame is received bytes within the two
mappings; a posted region is not empty, within the two mappings, and shares no
byte with what is still to be parsed. -/
def Event.Safe : Event → Prop
  | .assigned old new => Bounded new.readOv_ ∧ Moves old.readOv_ new.readOv_
  | .executed s off => off = s.readOv_.readPos_ ∧ PacketHeader.sizeOf ≤ sizeAt s off ∧
      off + sizeAt s off ≤ s.readOv_.writePos_ ∧ s.readOv_.writePos_ ≤ 2 * getSize
  | .posted s wsaBuf => s.readOv_.readPos_ < getSize ∧ wsaBuf.buf = s.readOv_.writePos_ ∧
      1 ≤ wsaBuf.len ∧ wsaBuf.buf + wsaBuf.len ≤ 2 * getSize ∧
      ∀ i j, s.readOv_.readPos_ ≤ i → i < s.readOv_.writePos_ → wsaBuf.buf ≤ j →
        j < wsaBuf.buf + wsaBuf.len → i % getSize ≠ j % getSize

/-- `u` is still to be parsed. -/
structure Inside (u : List UInt8) (s : Watched) : Prop where
  holds : s.session.readOv_.Holds u
  fits : u.length ≤ getSize
  high : s.session.readOv_.readPos_ + u.length < 2 * getSize
  safe : ∀ e ∈ s.log, Event.Safe e

/-- A receive is outstanding, after `u`. -/
structure Receiving (u : List UInt8) (s : Watched) : Prop where
  inside : Inside u s
  room : u.length < getSize
  low : s.session.readOv_.readPos_ < getSize
  wsaBuf : s.session.readOv_.wsaBuf_ = ⟨s.session.readOv_.writePos_, getSize - u.length⟩

variable {u : List UInt8} {s : Watched} {ok : Answers Watched Call} {bad : Fault → Prop}

theorem Inside.bounded (h : Inside u s) : Bounded s.session.readOv_ := by
  have hw := h.holds.writePos
  have hm := h.holds.mapped
  have hf := h.fits
  exact ⟨by omega, by omega, by omega⟩

/-! ## each event is safe -/

/-- A write to the session that moves the positions as it should. -/
theorem Inside.assign {u' : List UInt8} {t : Session} (h : Inside u s) (hholds : t.readOv_.Holds u')
    (hfits : u'.length ≤ getSize) (hhigh : t.readOv_.readPos_ + u'.length < 2 * getSize)
    (hmoves : Moves s.session.readOv_ t.readOv_) : Inside u' (self.set t s) := by
  refine ⟨hholds, hfits, hhigh, fun e he => ?_⟩
  rcases List.mem_append.mp he with he | he
  · exact h.safe e he
  · obtain rfl := List.mem_singleton.mp he
    have hw := hholds.writePos
    have hm := hholds.mapped
    exact ⟨⟨by omega, by omega, by omega⟩, hmoves⟩

/-- A write that leaves the buffer and the positions alone. -/
theorem Inside.assign_same {t : Session} (h : Inside u s)
    (ht : SameRing s.session.readOv_ t.readOv_) : Inside u (self.set t s) := by
  have hold := h.holds
  refine h.assign ⟨?_, ?_, ?_⟩ h.fits ?_ (.stays ht.readPos ht.writePos)
  · rw [ht.readPos, ht.writePos]
    exact hold.writePos
  · rw [ht.readPos, ht.buffer]
    exact hold.slice
  · rw [ht.readPos]
    exact hold.mapped
  · rw [ht.readPos]
    exact h.high

theorem Inside.note (h : Inside u s) (event : Session → Event) (hsafe : Event.Safe (event s.session)) :
    Inside u { s with log := s.log ++ [event s.session] } := by
  refine ⟨h.holds, h.fits, h.high, fun e he => ?_⟩
  rcases List.mem_append.mp he with he | he
  · exact h.safe e he
  · obtain rfl := List.mem_singleton.mp he
    exact hsafe

/-- What the other threads do is of no consequence. -/
theorem wp_meanwhile {post : Unit → Watched → Prop}
    (hpost : ∀ t : Session, t.readOv_ = s.session.readOv_ → post () (self.set t s)) :
    Prog.wp ok bad meanwhile post s := by
  intro t _
  exact hpost _ rfl

theorem wp_repoint {post : Unit → Watched → Prop}
    (hpost : ∀ t : Session, SameRing s.session.readOv_ t.readOv_ →
      t.readOv_.wsaBuf_ = s.session.readOv_.wsaBuf_ → post () (self.set t s)) :
    Prog.wp ok bad (repoint .read) post s := by
  intro t _
  exact hpost _ ⟨rfl, rfl, rfl⟩ rfl

/-- The header in front of the waiting bytes says how long their first frame is. -/
theorem sizeAt_eq (h : s.session.readOv_.Holds u) (hlen : 4 ≤ u.length) :
    sizeAt s.session s.session.readOv_.readPos_ = packets.size u := by
  have hslice : s.session.readOv_.buffer_.slice s.session.readOv_.readPos_ PacketHeader.sizeOf =
      u.take 4 := by
    rw [PacketHeader.sizeOf, ← Mirror.take_slice _ _ hlen, h.slice]
  rw [sizeAt, hslice, ofBytes_take hlen, packets_size]

theorem Inside.executed (h : Inside u s) (hsize : 4 ≤ packets.size u)
    (hlen : packets.size u ≤ u.length) :
    Event.Safe (.executed s.session s.session.readOv_.readPos_) := by
  have hw := h.holds.writePos
  have hm := h.holds.mapped
  have heq := sizeAt_eq h.holds (by omega)
  refine ⟨rfl, ?_, ?_, ?_⟩
  · rw [heq, PacketHeader.sizeOf]
    exact hsize
  · rw [heq]
    omega
  · omega

/-- Two offsets less than a turn of the ring apart are different bytes. -/
theorem mod_getSize_ne {i j : Nat} (hlt : i < j) (hturn : j < i + getSize) :
    i % getSize ≠ j % getSize := fun h => Mirror.ofNat_ne_of_lt hlt hturn (Fin.ext h)

theorem Receiving.posted (h : Receiving u s) :
    Event.Safe (.posted s.session s.session.readOv_.wsaBuf_) := by
  have hw := h.inside.holds.writePos
  have hroom := h.room
  have hlow := h.low
  rw [h.wsaBuf]
  refine ⟨hlow, rfl, ?_, ?_, fun i j hi hiw hj hjlen => ?_⟩
  · show 1 ≤ getSize - u.length
    omega
  · show s.session.readOv_.writePos_ + (getSize - u.length) ≤ 2 * getSize
    omega
  · have hjlt : j < s.session.readOv_.writePos_ + (getSize - u.length) := hjlen
    have hjle : s.session.readOv_.writePos_ ≤ j := hj
    exact mod_getSize_ne (by omega) (by omega)

/-! ## posting -/

/-- The other threads leave a posted read as it is. -/
theorem Receiving.others {t : Session} (h : Receiving u s)
    (ht : SameRing s.session.readOv_ t.readOv_)
    (hbuf : t.readOv_.wsaBuf_ = s.session.readOv_.wsaBuf_) : Receiving u (self.set t s) := by
  refine ⟨h.inside.assign_same ht, h.room, ?_, ?_⟩
  · show t.readOv_.readPos_ < getSize
    rw [ht.readPos]
    exact h.low
  · show t.readOv_.wsaBuf_ = ⟨t.readOv_.writePos_, getSize - u.length⟩
    rw [hbuf, ht.writePos]
    exact h.wsaBuf

/-- A session with `readOv_` set up for a read of `len` bytes. -/
def prepared (len : Nat) (t : Session) : Session :=
  { t with readOv_.ioType_ := .kRecv, readOv_.wsaBuf_ := ⟨t.readOv_.writePos_, len⟩ }

/-- `RegisterRead` posts all the room there is. -/
theorem wp_registerRead {post : Bool → Watched → Prop} (h : Inside u s) (hroom : u.length < getSize)
    (hlow : s.session.readOv_.readPos_ < getSize)
    (hpost : ∀ b s', (if b then Receiving u s' else Inside u s') → post b s') :
    Prog.wp ok bad (registerRead port) post s := by
  have hlen : ¬ getSize - u.length = 0 := by omega
  have hreceiving : Receiving u (self.set (prepared (getSize - u.length) s.session)
      (self.set { s.session with readOv_.wsaBuf_.len := getSize - u.length } s)) := by
    have h₁ : Inside u (self.set
      { s.session with readOv_.wsaBuf_.len := getSize - u.length } s) :=
      h.assign_same ⟨rfl, rfl, rfl⟩
    exact ⟨h₁.assign_same ⟨rfl, rfl, rfl⟩, hroom, hlow, rfl⟩
  unfold registerRead
  rw [Prog.bind_eq, Prog.wp_bind, Prog.wp_lens_update rfl]
  show Prog.wp ok bad _ post _
  rw [show port.self.get s = s.session from rfl, h.holds.room_eq h.fits, if_neg hlen,
    Prog.bind_eq, Prog.wp_bind, Prog.wp_lens_modify]
  change Prog.wp ok bad _ post (self.set (prepared (getSize - u.length) s.session)
    (self.set { s.session with readOv_.wsaBuf_.len := getSize - u.length } s))
  generalize self.set (prepared (getSize - u.length) s.session)
    (self.set { s.session with readOv_.wsaBuf_.len := getSize - u.length } s) = s₂ at hreceiving
  simp only [Prog.bind_eq, Prog.wp_bind, Prog.wp_lens_read]
  refine wp_repoint fun t ht hbuf => ?_
  have h₃ := hreceiving.others ht hbuf
  generalize self.set t s₂ = s₃ at h₃
  have h₄ : Receiving u ⟨s₃.session, s₃.log ++ [.posted s₃.session s₃.session.readOv_.wsaBuf_]⟩ :=
    ⟨h₃.inside.note (fun t => .posted t s₃.session.readOv_.wsaBuf_) h₃.posted,
      h₃.room, h₃.low, h₃.wsaBuf⟩
  intro r _
  cases r with
  | ok => exact hpost true _ h₄
  | socketError errorCode =>
      rw [Prog.wp_done]
      show Prog.wp ok bad (if errorCode = WSA_IO_PENDING then _ else _) post _
      by_cases hpending : errorCode = WSA_IO_PENDING
      · rw [if_pos hpending]
        exact hpost true _ h₄
      · rw [if_neg hpending, Prog.wp_bind]
        exact wp_repoint fun t ht _ => hpost false _ (h₄.inside.assign_same ht)

/-! ## one completion -/

/-- The handler gets its packet, and the positions stay. -/
theorem wp_call {post : Bool → Watched → Prop} (h : Inside u s) (hsize : 4 ≤ packets.size u)
    (hlen : packets.size u ≤ u.length)
    (hpost : ∀ b s', s'.session.readOv_ = s.session.readOv_ → Inside u s' → post b s') :
    Prog.wp ok bad (call s.session.readOv_.readPos_) post s := by
  have hheader : (s.session.readOv_.load s.session.readOv_.readPos_ PacketHeader.sizeOf).map
      PacketHeader.ofBytes = .ok (.ofBytes u) := by
    rw [PacketHeader.sizeOf, h.holds.load (by omega), Except.map, ofBytes_take (by omega)]
  have hpacket : s.session.readOv_.load s.session.readOv_.readPos_
      (PacketHeader.ofBytes u).size.toNat = .ok (u.take (packets.size u)) := h.holds.load hlen
  simp only [call, Prog.bind_eq, Prog.wp_bind]
  rw [Prog.wp_lens_view hheader, Prog.wp_lens_view hpacket]
  refine wp_meanwhile fun t ht b _ => hpost b _ ht (h.assign_same ⟨?_, ?_, ?_⟩)
  · rw [ht]
  · rw [ht]
  · rw [ht]

/-- `Execute` on the frame in front: it calls a handler, or faults at the table. -/
theorem wp_execute {post : Bool → Watched → Prop} (h : Inside u s) (hsize : 4 ≤ packets.size u)
    (hlen : packets.size u ≤ u.length)
    (hpost : ∀ b s', s'.session.readOv_ = s.session.readOv_ → Inside u s' → post b s') :
    Prog.wp ok Reader.AtTable (port.execute s.session.readOv_.readPos_) post s := by
  have h₁ : Inside u
      ⟨s.session, s.log ++ [.executed s.session s.session.readOv_.readPos_]⟩ :=
    h.note (fun t => .executed t s.session.readOv_.readPos_) (h.executed hsize hlen)
  have hheader : (s.session.readOv_.load s.session.readOv_.readPos_ PacketHeader.sizeOf).map
      PacketHeader.ofBytes = .ok (.ofBytes u) := by
    rw [PacketHeader.sizeOf, h.holds.load (by omega), Except.map, ofBytes_take (by omega)]
  have hcall : Prog.wp ok Reader.AtTable (call s.session.readOv_.readPos_) post
      ⟨s.session, s.log ++ [.executed s.session s.session.readOv_.readPos_]⟩ :=
    wp_call h₁ hsize hlen hpost
  show Prog.wp ok Reader.AtTable (PacketHandler.execute _ _ _) post
    ⟨s.session, s.log ++ [.executed s.session s.session.readOv_.readPos_]⟩
  unfold PacketHandler.execute
  rw [Prog.bind_eq, Prog.wp_bind, Prog.wp_lens_view hheader, PacketHandler.handlers_get?]
  split_ifs
  · exact .inr rfl
  · exact hcall
  · exact hcall
  · exact .inl rfl

/-- The parsing loop stops inside the buffer; unless it rejects, with less than a
frame left. -/
theorem wp_parse (h : Inside u s) {turns : Nat} (hturns : u.length < turns) :
    Prog.wp ok Reader.AtTable (parse port turns) (fun b s' =>
      ∃ u', Inside u' s' ∧ (b = true → Stuck u' false)) s := by
  refine Prog.wp_mono (fun b s' hb => ?_)
    (Session.wp_parse port (I := Inside) (R := fun s' => ∃ u', Inside u' s')
      (fun u s h => h.holds) ?_ turns u s h hturns)
  · cases b with
    | true =>
        obtain ⟨u', hu', hstuck⟩ := hb
        exact ⟨u', hu', fun _ => hstuck⟩
    | false =>
        rcases hb with ⟨u', hu', -⟩ | ⟨u', hu'⟩
        · exact ⟨u', hu', by simp⟩
        · exact ⟨u', hu', by simp⟩
  · intro u s h hsize hlen
    refine wp_execute h hsize hlen fun b s' hov h' => ?_
    cases b with
    | false => exact ⟨u, h'⟩
    | true =>
        have hhigh := h'.high
        have hfits := h'.fits
        have hB := getSize_eq
        have hpos : (s'.session.readOv_.consume (packets.size u)).readPos_ =
            s'.session.readOv_.readPos_ + packets.size u := add64_of_lt (by omega)
        refine ⟨hov, h'.assign (h'.holds.consume hlen) ?_ ?_ (.parses _ hpos rfl)⟩
        · rw [List.length_drop]
          omega
        · show (s'.session.readOv_.consume (packets.size u)).readPos_ + _ < _
          rw [hpos, List.length_drop]
          omega

/-- The chunk joins the waiting bytes. -/
theorem Receiving.received (h : Receiving u s) {chunk : List UInt8}
    (hlen : chunk.length ≤ s.session.readOv_.wsaBuf_.len) :
    Inside (u ++ chunk) (received chunk s) := by
  have hB := getSize_eq
  have hroom := h.room
  have hlow := h.low
  have hw := h.inside.holds.writePos
  have hm := h.inside.holds.mapped
  rw [h.wsaBuf] at hlen
  have hle : chunk.length ≤ getSize - u.length := hlen
  have hbuf : s.session.readOv_.wsaBuf_.buf = s.session.readOv_.writePos_ := by rw [h.wsaBuf]
  have hdeliver : Inside u (deliver chunk s) := by
    have hturn : s.session.readOv_.readPos_ + u.length + chunk.length ≤
        s.session.readOv_.readPos_ + getSize := by omega
    refine ⟨⟨hw, ?_, hm⟩, h.inside.fits, h.inside.high, h.inside.safe⟩
    simp only [deliver, hbuf, hw]
    rw [Mirror.slice_write_before _ le_rfl hturn, h.inside.holds.slice]
  have hwrite : add64 s.session.readOv_.writePos_ chunk.length =
      s.session.readOv_.writePos_ + chunk.length := add64_of_lt (by omega)
  have hholds := h.inside.holds.append chunk (by omega) (by omega)
  refine hdeliver.assign ?_ ?_ ?_ (.receives chunk.length rfl hwrite)
  · simp only [deliver, hbuf]
    exact hholds
  · rw [List.length_append]
    omega
  · show s.session.readOv_.readPos_ + _ < _
    rw [List.length_append]
    omega

/-- Bringing the positions back. -/
theorem Inside.rewind (h : Inside u s) :
    Inside u (self.set { s.session with readOv_ := s.session.readOv_.rewind } s) ∧
      s.session.readOv_.rewind.readPos_ < getSize := by
  have hB := getSize_eq
  have hhigh := h.high
  have hw := h.holds.writePos
  have hlow : s.session.readOv_.rewind.readPos_ < getSize := Holds.rewind_lt (by omega)
  have hfits := h.fits
  refine ⟨h.assign h.holds.rewind hfits ?_ ?_, hlow⟩
  · show s.session.readOv_.rewind.readPos_ + _ < _
    omega
  · show Moves s.session.readOv_ s.session.readOv_.rewind
    unfold OverlappedEx.rewind
    split_ifs with hge
    · refine .rewinds ?_ ?_
      · simp only
        rw [sub64_of_le hge (by omega)]
        omega
      · simp only
        rw [sub64_of_le (by omega) (by omega)]
        omega
    · exact .stays rfl rfl

/-- `OnRead` keeps everything inside the buffer; when it returns true another
read is posted. -/
theorem wp_onRead (h : Receiving u s) {chunk : List UInt8}
    (hlen : chunk.length ≤ s.session.readOv_.wsaBuf_.len) :
    Prog.wp ok Reader.AtTable (onRead port chunk.length) (fun b s' =>
      ∃ u', if b then Receiving u' s' else Inside u' s') (deliver chunk s) := by
  have hreceived := h.received hlen
  have havail : (received chunk s).session.readOv_.available = (u ++ chunk).length :=
    hreceived.holds.available
  refine Session.wp_onRead port rfl ?_
  refine Prog.wp_mono (fun b s₂ hb => ?_)
    (wp_parse hreceived (Nat.lt_succ_of_le havail.ge))
  obtain ⟨u', hu', hstuck⟩ := hb
  cases b with
  | false => exact ⟨u', hu'⟩
  | true =>
      obtain ⟨hrewind, hlow⟩ := hu'.rewind
      exact wp_registerRead hrewind (Reader.length_lt_of_stuck (hstuck rfl)) hlow
        fun b s' hs' => ⟨u', hs'⟩

/-! ## whole lives -/

/-- Where a slot is between two calls: no read was posted since it was reset,
one is outstanding, or there will be no other before the next reset. -/
inductive Phase where
  | fresh | receiving | stopped
  deriving DecidableEq

/-- What a call that returned `b` leaves. -/
def Phase.after (b : Bool) : Phase := if b then .receiving else .stopped

/-- The states of a slot, over any number of lives. -/
inductive Reachable : Phase → Watched → Prop where
  /-- a new session -/
  | new : Reachable .fresh { session := {} }
  /-- the other threads, and whatever else leaves the ring alone -/
  | others {phase : Phase} {s : Watched} (t : Session) :
      Reachable phase s → SameRing s.session.readOv_ t.readOv_ →
      t.readOv_.wsaBuf_ = s.session.readOv_.wsaBuf_ → Reachable phase (self.set t s)
  /-- `PostAccept`: `AcceptEx` leaves two addresses in the buffer -/
  | accept {s : Watched} (buffer : Mirror kMagicBufferSize) : Reachable .fresh s →
      Reachable .fresh (self.set
        { s.session with readOv_.ioType_ := .kAccept, readOv_.buffer_ := buffer } s)
  /-- the first `RegisterRead`, by `Connect` -/
  | connect {s s' : Watched} {b : Bool} : Reachable .fresh s →
      Prog.Exec anything (registerRead port) s (.ok (b, s')) → Reachable (.after b) s'
  /-- a completion with the next piece of the stream -/
  | complete {s s' : Watched} {b : Bool} (chunk : List UInt8) : Reachable .receiving s →
      chunk.length ≤ s.session.readOv_.wsaBuf_.len →
      Prog.Exec anything (onRead port chunk.length) (deliver chunk s) (.ok (b, s')) →
      Reachable (.after b) s'
  /-- a completion without one -/
  | fail {s : Watched} : Reachable .receiving s → Reachable .stopped s
  /-- the last release -/
  | reset {phase : Phase} {s : Watched} : Reachable phase s → phase ≠ .receiving →
      Reachable .fresh { s with session.readOv_ := s.session.readOv_.reset }

/-- What holds of a slot in each phase. -/
def Kept : Phase → Watched → Prop
  | .fresh, s => Inside [] s ∧ s.session.readOv_.readPos_ = 0
  | .receiving, s => ∃ u, Receiving u s
  | .stopped, s => ∃ u, Inside u s

theorem kept_after {b : Bool} (h : ∃ u, if b then Receiving u s else Inside u s) :
    Kept (.after b) s := by
  cases b with
  | true => exact h
  | false => exact h

theorem Kept.inside {phase : Phase} (h : Kept phase s) : ∃ u, Inside u s := by
  cases phase with
  | fresh => exact ⟨[], h.1⟩
  | receiving =>
      obtain ⟨u, hu⟩ := h
      exact ⟨u, hu.inside⟩
  | stopped => exact h

/-- `RegisterRead` on a slot just reset. -/
theorem wp_connect (h : Kept .fresh s) :
    Prog.wp ok (fun _ => False) (registerRead port) (fun b s' =>
      ∃ u', if b then Receiving u' s' else Inside u' s') s := by
  obtain ⟨hinside, hpos⟩ := h
  exact wp_registerRead hinside (by decide) (by rw [hpos]; decide) fun b s' hs' => ⟨[], hs'⟩

theorem Reachable.kept {phase : Phase} (h : Reachable phase s) : Kept phase s := by
  induction h with
  | new => exact ⟨⟨.nil rfl (by decide), by decide, by decide, by simp⟩, rfl⟩
  | @others phase s t _ ht hbuf ih =>
      cases phase with
      | fresh =>
          refine ⟨ih.1.assign_same ht, ?_⟩
          show t.readOv_.readPos_ = 0
          rw [ht.readPos, ih.2]
      | receiving =>
          obtain ⟨u, hu⟩ := ih
          exact ⟨u, hu.others ht hbuf⟩
      | stopped =>
          obtain ⟨u, hu⟩ := ih
          exact ⟨u, hu.assign_same ht⟩
  | accept buffer _ ih =>
      obtain ⟨hinside, hpos⟩ := ih
      refine ⟨hinside.assign ⟨hinside.holds.writePos, rfl, hinside.holds.mapped⟩ (by decide) ?_
        (.stays rfl rfl), hpos⟩
      exact hinside.high
  | connect _ hexec ih => exact kept_after (hexec.post (wp_connect ih))
  | complete chunk _ hlen hexec ih =>
      obtain ⟨u, hu⟩ := ih
      exact kept_after (hexec.post (wp_onRead hu hlen))
  | fail _ ih =>
      obtain ⟨u, hu⟩ := ih
      exact ⟨u, hu.inside⟩
  | reset _ _ ih =>
      obtain ⟨u, hu⟩ := ih.inside
      exact ⟨⟨.nil rfl (Nat.zero_le _), by decide, Nat.two_pow_pos 17, hu.safe⟩, rfl⟩

/-- The length `RegisterRead` would post. -/
def room (ov : OverlappedEx) : Nat := toULong (add64 (sub64 getSize ov.writePos_) ov.readPos_)

/-- What is claimed of a slot: its positions, everything that was done to it,
and whatever the next completion may be. -/
structure StaysInside (phase : Phase) (s : Watched) : Prop where
  bounded : Bounded s.session.readOv_
  low : phase = .receiving → s.session.readOv_.readPos_ < getSize
  log : ∀ e ∈ s.log, Event.Safe e
  /-- no access outside the two mappings, and the loop stops -/
  faults : phase = .receiving → ∀ chunk e, chunk.length ≤ s.session.readOv_.wsaBuf_.len →
    Prog.Exec anything (onRead port chunk.length) (deliver chunk s) (.error e) → Reader.AtTable e
  /-- `RegisterRead` finds room after every loop that does not reject -/
  room : phase = .receiving → ∀ chunk s₂, chunk.length ≤ s.session.readOv_.wsaBuf_.len →
    Prog.Exec anything (parse port ((received chunk s).session.readOv_.available + 1))
      (received chunk s) (.ok (true, s₂)) → 1 ≤ Watched.room s₂.session.readOv_.rewind

/-- **The receive buffer never fills up or leaves its mapping.** -/
theorem stays_inside (phase : Phase) (s : Watched) (h : Reachable phase s) : StaysInside phase s := by
  have hkept := h.kept
  obtain ⟨u, hu⟩ := hkept.inside
  refine ⟨hu.bounded, ?_, hu.safe, ?_, ?_⟩
  · rintro rfl
    obtain ⟨u, hu⟩ := hkept
    exact hu.low
  · rintro rfl chunk e hlen hexec
    obtain ⟨u, hu⟩ := hkept
    exact hexec.tolerated (wp_onRead hu hlen)
  · rintro rfl chunk s₂ hlen hexec
    obtain ⟨u, hu⟩ := hkept
    have hreceived := hu.received hlen
    have havail : (received chunk s).session.readOv_.available = (u ++ chunk).length :=
      hreceived.holds.available
    obtain ⟨u', hu', hstuck⟩ := hexec.post (wp_parse hreceived (Nat.lt_succ_of_le havail.ge))
    have hlt := Reader.length_lt_of_stuck (hstuck rfl)
    rw [Watched.room, hu'.holds.rewind.room_eq hu'.fits]
    omega

/-- Answers under which everything succeeds. -/
def succeed : ∀ β : Type, Watched → Call β → β
  | _, _, .inl (.getState _) => none
  | _, _, .inl (.setState _ _) => true
  | _, _, .inl (.connectSession _) => true
  | _, _, .inl (.disconnectSession _) => ()
  | _, _, .inl (.handle _) => true
  | _, _, .inl (.wsaRecv _) => .ok
  | _, _, .inl (.wsaSend _) => .ok
  | _, _, .inl .disconnectEx => (1, 0)
  | _, s, .inr .meanwhile => s.session

/-- Where a call that returns true leads to. -/
def succeeded : Except Fault (Bool × Watched) → Option Watched
  | .ok (true, s) => some s
  | _ => none

/-- Completions of a receive, one `OnRead` each. -/
def complete (s : Watched) : List (List UInt8) → Option Watched
  | [] => some s
  | chunk :: chunks =>
      if chunk.length ≤ s.session.readOv_.wsaBuf_.len then
        (succeeded (Prog.run succeed (onRead port chunk.length) (deliver chunk s))).bind
          (complete · chunks)
      else none

theorem exec_succeeded {p : Prog Watched Call Fault Bool} {s s' : Watched}
    (h : succeeded (Prog.run succeed p s) = some s') : Prog.Exec anything p s (.ok (true, s')) := by
  have hexec : Prog.Exec anything p s (Prog.run succeed p s) :=
    Prog.exec_run (fun _ _ _ => trivial) p s
  match hrun : Prog.run succeed p s with
  | .ok (true, s₁) =>
      rw [hrun] at h hexec
      obtain rfl := Option.some.inj h
      exact hexec
  | .ok (false, _) | .error _ =>
      rw [hrun] at h
      cases h

theorem Reachable.completed {s s' : Watched} {chunks : List (List UInt8)}
    (hs : Reachable .receiving s) (h : s.complete chunks = some s') : Reachable .receiving s' := by
  induction chunks generalizing s with
  | nil =>
      obtain rfl := Option.some.inj h
      exact hs
  | cons chunk chunks ih =>
      simp only [Watched.complete] at h
      split_ifs at h with hlen
      obtain ⟨s₁, hs₁, h⟩ := Option.bind_eq_some_iff.mp h
      exact ih (.complete (b := true) chunk hs hlen (exec_succeeded hs₁)) h

/-- The first read of a new session, and two completions: they end a packet and begin the next. -/
theorem stays_inside_completed : ∃ s : Watched,
    (s.session.readOv_.readPos_, s.session.readOv_.writePos_) = (6, 8) ∧
      StaysInside .receiving s := by
  have hrun : ((succeeded (Prog.run succeed (registerRead port) { session := {} })).bind
      (complete · [[6, 0, 2], [0, 104, 105, 4, 0]])).map
        (fun s => (s.session.readOv_.readPos_, s.session.readOv_.writePos_)) = some (6, 8) := by
    decide +kernel
  obtain ⟨s, h, hpos⟩ := Option.map_eq_some_iff.mp hrun
  obtain ⟨s₁, hs₁, h⟩ := Option.bind_eq_some_iff.mp h
  exact ⟨s, hpos, stays_inside .receiving s
    ((Reachable.connect (b := true) .new (exec_succeeded hs₁)).completed h)⟩

end Watched

end ServerStudy
