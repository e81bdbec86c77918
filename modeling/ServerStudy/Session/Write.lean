import ServerStudy.Session

/-!
# ServerStudy.Session.Write

The sending side of a session, for any session manager and any kernel: what
`SendPacket` and `OnWrite` do to the bytes waiting in `writeOv_`, up to the
calls they make.

* `wp_sendPacket` — refuse, queue, or queue and post;
* `wp_onWrite` — take the sent bytes off, and stop or post the rest.
-/

namespace ServerStudy

namespace Session

open OverlappedEx

variable {σ : Type} {Q : Type → Type} {ok : Answers σ Q} {bad : Fault → Prop}

/-! ## the fields after each section -/

/-- Bytes join the end of `writeOv_`. -/
def queue (s : Session) (bs : List UInt8) : Session :=
  { s with
    writeOv_ := ({ s.writeOv_ with
      buffer_ := s.writeOv_.buffer_.write s.writeOv_.writePos_ bs } : OverlappedEx).produce bs.length }

/-- `n` bytes of `writeOv_` have been sent. -/
def sentOff (s : Session) (n : Nat) : Session :=
  { s with writeOv_ := (s.writeOv_.consume n).rewind }

/-- The operation for all that is waiting in `writeOv_` is prepared. -/
def prepareSend (s : Session) : Session :=
  { s with
    writeOv_.ioType_ := .kSend
    writeOv_.wsaBuf_ := ⟨s.writeOv_.readPos_, toULong s.writeOv_.available⟩ }

/-- What is waiting to be sent, with the read position in the first mapping. -/
structure Queued (s : Session) (waiting : List UInt8) : Prop where
  holds : s.writeOv_.Holds waiting
  low : s.writeOv_.readPos_ < getSize
  fits : waiting.length ≤ getSize

theorem Queued.available {s : Session} {w : List UInt8} (h : s.Queued w) :
    s.writeOv_.available = w.length := h.holds.available

theorem Queued.queue {s : Session} {w : List UInt8} (h : s.Queued w) (bs : List UInt8)
    (hroom : w.length + bs.length ≤ getSize) : (s.queue bs).Queued (w ++ bs) := by
  have hlow := h.low
  refine ⟨h.holds.append bs hroom (by omega), hlow, ?_⟩
  rw [List.length_append]
  exact hroom

theorem Queued.sentOff {s : Session} {w : List UInt8} (h : s.Queued w) {n : Nat}
    (hn : n ≤ w.length) : (s.sentOff n).Queued (w.drop n) := by
  have hlow := h.low
  have hfits := h.fits
  have hB := getSize_eq
  have hpos : (s.writeOv_.consume n).readPos_ = s.writeOv_.readPos_ + n := add64_of_lt (by omega)
  refine ⟨(h.holds.consume hn).rewind, Holds.rewind_lt ?_, ?_⟩
  · rw [hpos]
    omega
  · rw [List.length_drop]
    omega

/-- The operation covers what is waiting. -/
theorem Queued.prepareSend {s : Session} {w : List UInt8} (h : s.Queued w) :
    s.prepareSend.Queued w ∧
      s.prepareSend.writeOv_.wsaBuf_ = ⟨s.writeOv_.readPos_, w.length⟩ := by
  have hfits := h.fits
  have hB := getSize_eq
  refine ⟨⟨⟨h.holds.writePos, h.holds.slice, h.holds.mapped⟩, h.low, h.fits⟩, ?_⟩
  rw [Session.prepareSend, h.available, toULong_of_lt (by omega)]

/-- With nothing waiting the two positions are equal, and otherwise not. -/
theorem Queued.pos_eq_iff {s : Session} {w : List UInt8} (h : s.Queued w) :
    s.writeOv_.readPos_ = s.writeOv_.writePos_ ↔ w = [] := by
  rw [h.holds.writePos]
  constructor
  · intro he
    exact List.eq_nil_of_length_eq_zero (by omega)
  · rintro rfl
    rfl

/-! ## the methods -/

/-- `RegisterWriteInternal`, up to the calls it makes. -/
theorem wp_registerWriteInternal (P : SessionPort σ Q) {post : Bool → σ → Prop} {s : σ}
    (hsending : (P.self.get s).isSending_ = true)
    (h : Prog.wp ok bad (P.assignSessionPtr .write (P.self.get s).handle_) (fun _ s₂ =>
      Prog.wp ok bad (P.wsaSend (P.self.get s₂).writeOv_.wsaBuf_) (fun r s₃ =>
        if r.posted then post true s₃
        else Prog.wp ok bad (P.resetSessionPtr .write) (fun _ s₄ => post false s₄) s₃) s₂)
      (P.self.set (P.self.get s).prepareSend s)) :
    Prog.wp ok bad (registerWriteInternal P) post s := by
  unfold registerWriteInternal
  have hupdate : (if (P.self.get s).isSending_ = true then
      Except.ok ((), (P.self.get s).prepareSend) else Except.error Fault.assertion) =
      .ok ((), (P.self.get s).prepareSend) := if_pos hsending
  rw [Prog.bind_eq, Prog.wp_bind, Prog.wp_lens_update hupdate, Prog.bind_eq, Prog.wp_bind,
    Prog.wp_lens_read, Prog.bind_eq, Prog.wp_bind, P.self.get_set]
  refine Prog.wp_mono (fun _ s₂ h₂ => ?_) h
  rw [Prog.bind_eq, Prog.wp_bind, Prog.wp_lens_read, Prog.bind_eq, Prog.wp_bind]
  refine Prog.wp_mono (fun r s₃ h₃ => ?_) h₂
  cases r with
  | ok => exact h₃
  | socketError errorCode =>
      by_cases hpending : errorCode = WSA_IO_PENDING
      · simpa [hpending, WsaResult.posted] using h₃
      · simpa [hpending, WsaResult.posted, Prog.wp_bind] using h₃

/-- The copy of `SendPacket`, where there is room. -/
theorem Queued.copyIn_eq {s : Session} {w packet : List UInt8} (h : s.Queued w)
    (hobj : packets.size packet ≤ packet.length)
    (hroom : w.length + packets.size packet ≤ getSize) :
    copyIn packet (packets.size packet) s =
      .ok ((), s.queue (packet.take (packets.size packet))) := by
  have hlow := h.low
  have hlen : (packet.take (packets.size packet)).length = packets.size packet :=
    List.length_take_of_le hobj
  rw [copyIn, if_neg (by omega), h.holds.store (by omega), Session.queue, hlen]
  rfl

/-- `SendPacket`, up to the operation it posts. -/
theorem wp_sendPacket (P : SessionPort σ Q) {post : Bool → σ → Prop} {s : σ}
    {packet w : List UInt8} (h : (P.self.get s).Queued w)
    (hobj : packets.size packet ≤ packet.length)
    (hfull : w.length + packets.size packet > getSize → post false s)
    (hroom : w.length + packets.size packet ≤ getSize →
      let s₁ := P.self.set ((P.self.get s).queue (packet.take (packets.size packet))) s
      if (P.self.get s).isSending_ then post true s₁
      else Prog.wp ok bad (registerWriteInternal P) post
        (P.self.set { P.self.get s₁ with isSending_ := true } s₁)) :
    Prog.wp ok bad (sendPacket P packet) post s := by
  have hB := getSize_eq
  have hsize : packets.size packet < 65536 := (PacketHeader.ofBytes packet).size.toNat_lt
  have hfits := h.fits
  unfold sendPacket
  rw [Prog.wp_atomically, Prog.bind_eq, Prog.wp_bind, Prog.wp_lens_read, h.available,
    add64_of_lt (by rw [← packets_size]; omega), ← packets_size]
  by_cases hover : w.length + packets.size packet > getSize
  · rw [if_pos hover]
    exact hfull hover
  · have h₁ := hroom (by omega)
    rw [if_neg hover, Prog.bind_eq, Prog.wp_bind,
      Prog.wp_lens_update (h.copyIn_eq hobj (Nat.not_lt.mp hover)), Prog.bind_eq, Prog.wp_bind,
      Prog.wp_lens_read, P.self.get_set]
    have hflag : ((P.self.get s).queue (packet.take (packets.size packet))).isSending_ =
        (P.self.get s).isSending_ := rfl
    rw [hflag]
    cases hsending : (P.self.get s).isSending_ with
    | true =>
        rw [hsending] at h₁
        exact h₁
    | false =>
        simp only [hsending, Bool.false_eq_true, if_false, Bool.not_false, if_true] at h₁ ⊢
        rw [Prog.bind_eq, Prog.wp_bind, Prog.wp_lens_modify, Prog.bind_eq, Prog.wp_bind]
        refine Prog.wp_mono (fun b s₂ hb => ?_) h₁
        cases b <;> exact hb

/-- The flag does not matter to what is waiting. -/
theorem Queued.withSending {s : Session} {w : List UInt8} (h : s.Queued w) (b : Bool) :
    Queued { s with isSending_ := b } w := ⟨h.holds, h.low, h.fits⟩

/-- What a queue holds after `SendPacket`: the packet has joined it, if there was room. -/
def queueAfter (waiting packet : List UInt8) : List UInt8 :=
  if waiting.length + packets.size packet ≤ getSize then
    waiting ++ packet.take (packets.size packet)
  else waiting

/-- `SendPacket` of a session on its own queues the packet if there is room, and leaves the
other fields alone but for the operation it posts. -/
theorem wp_sendPacket_alone {self : Lens σ Session} (hself : self.Lawful)
    {execute : Nat → Prog σ SessionCall Fault Bool} {ok : Answers σ SessionCall}
    {post : Bool → σ → Prop} {s : σ} {packet w : List UInt8} (h : (self.get s).Queued w)
    (hobj : packets.size packet ≤ packet.length)
    (hpost : ∀ b x, x.Queued (queueAfter w packet) → x.handle_ = (self.get s).handle_ →
      x.sessionManager_ = (self.get s).sessionManager_ → post b (self.set x s)) :
    Prog.wp ok bad (sendPacket (.alone self execute) packet) post s := by
  refine wp_sendPacket _ h hobj (fun hfull => ?_) fun hroom => ?_
  · have hsame := hpost false (self.get s) (by rw [queueAfter, if_neg (by omega)]; exact h) rfl rfl
    rwa [hself.set_get] at hsame
  · have hjoined : ((self.get s).queue (packet.take (packets.size packet))).Queued
        (queueAfter w packet) := by
      rw [queueAfter, if_pos hroom]
      exact h.queue _ (by rw [List.length_take_of_le hobj]; exact hroom)
    simp only [SessionPort.alone, self.get_set, hself.set_set]
    split_ifs with hsending
    · exact hpost true _ hjoined rfl rfl
    · have hposted := fun b => hpost b _ (hjoined.withSending true).prepareSend.1 rfl rfl
      refine wp_registerWriteInternal _ (by rw [self.get_set]) fun r _ => ?_
      change if r.posted = true then post true (self.set (self.get (self.set _ _)).prepareSend _)
        else post false (self.set (self.get (self.set _ _)).prepareSend _)
      rw [self.get_set, hself.set_set]
      split_ifs
      · exact hposted true
      · exact hposted false

/-- `OnWrite`, up to the operation it posts. -/
theorem wp_onWrite (P : SessionPort σ Q) {post : Bool → σ → Prop} {s s₁ : σ} {w : List UInt8}
    {n : Nat} (h : (P.self.get s).Queued w) (hsending : (P.self.get s).isSending_ = true)
    (hn : n ≤ w.length) (hs₁ : s₁ = P.self.set ((P.self.get s).sentOff n) s)
    (hdone : n = w.length → post true (P.self.set { P.self.get s₁ with isSending_ := false } s₁))
    (hmore : n < w.length → Prog.wp ok bad (registerWriteInternal P) post s₁) :
    Prog.wp ok bad (onWrite P n) post s := by
  have hcheck : (if (P.self.get s).isSending_ = true then Except.ok () else
      Except.error Fault.assertion) = .ok () := if_pos hsending
  have hw₁ : (P.self.get s₁).Queued (w.drop n) := by
    rw [hs₁, P.self.get_set]
    exact h.sentOff hn
  have hpos : (P.self.get s₁).writeOv_.readPos_ = (P.self.get s₁).writeOv_.writePos_ ↔
      n = w.length := by
    rw [hw₁.pos_eq_iff, List.drop_eq_nil_iff]
    omega
  unfold onWrite
  rw [Prog.wp_atomically, Prog.bind_eq, Prog.wp_bind, Prog.wp_lens_view hcheck, Prog.bind_eq,
    Prog.wp_bind, Prog.wp_lens_modify]
  change Prog.wp ok bad _ post (P.self.set ((P.self.get s).sentOff n) s)
  rw [← hs₁, Prog.bind_eq, Prog.wp_bind, Prog.wp_lens_read]
  by_cases hall : n = w.length
  · rw [if_pos (decide_eq_true (hpos.mpr hall)), Prog.bind_eq, Prog.wp_bind, Prog.wp_lens_modify]
    exact hdone hall
  · rw [if_neg (by rw [decide_eq_true_iff, hpos]; exact hall), Prog.bind_eq, Prog.wp_bind]
    refine Prog.wp_mono (fun b s₂ hb => ?_) (hmore (by omega))
    cases b <;> exact hb

/-! ## the welcome packet -/

theorem length_welcomePacket (handle : UInt64) : (welcomePacket handle).length = S2CChat.sizeOf := by
  have hlen := length_signedDecimal handle
  simp only [welcomePacket, List.length_append, PacketHeader.length_bytes, length_leBytes,
    List.length_replicate, S2CChat.sizeOf, S2CChat.messageOff, kChatPacketSize]
  omega

/-- Its header counts the message and the zero after it. -/
theorem size_welcomePacket (handle : UInt64) :
    packets.size (welcomePacket handle) = 4 + (signedDecimal handle).length + 1 := by
  have hlen := length_signedDecimal handle
  rw [packets_size, welcomePacket]
  simp only [List.append_assoc, PacketHeader.ofBytes_bytes_append, PacketHeader.sizeOf]
  rw [UInt16.toNat_ofNat']
  omega

theorem size_le_welcomePacket (handle : UInt64) :
    packets.size (welcomePacket handle) ≤ (welcomePacket handle).length := by
  have hlen := length_signedDecimal handle
  rw [size_welcomePacket, length_welcomePacket, S2CChat.sizeOf, S2CChat.messageOff, kChatPacketSize]
  omega

end Session

end ServerStudy
