import ServerStudy.Session.Write

/-!
# ServerStudy.Session.Send

What one session sends, for any order of `SendPacket` calls and send
completions, when every `WSASend` is posted.

* `sent_append_waiting` — what the kernel has sent, followed by what waits in
  `writeOv_`, is the accepted packets one after the other; the bytes of an
  operation in flight are those it was posted with.
-/

namespace ServerStudy

/-! ## a session and the kernel -/

/-- An operation posted with `WSASend`, and the bytes it was posted with. -/
structure Outgoing where
  wsaBuf : WsaBuf
  data : List UInt8

/-- A session, the operations in flight, the bytes the kernel has sent, and the
packets `SendPacket` returned true for. -/
structure Sender where
  session : Session
  inFlight : List Outgoing := []
  sent : List UInt8 := []
  accepted : List (List UInt8) := []

namespace Sender

/-- The session of a `Sender`. -/
def self : Lens Sender Session where
  get s := s.session
  set session s := { s with session }
  get_set _ _ := rfl

/-- The bytes of `writeOv_` that a `WSABUF` points to. -/
def region (s : Sender) (wsaBuf : WsaBuf) : List UInt8 :=
  s.session.writeOv_.buffer_.slice wsaBuf.buf wsaBuf.len

/-- `WSASend`: the kernel takes note of the operation. -/
def wsaSend (wsaBuf : WsaBuf) : Prog Sender SessionCall Fault WsaResult := do
  Prog.modify fun s => { s with inFlight := s.inFlight ++ [⟨wsaBuf, s.region wsaBuf⟩] }
  Prog.query (.wsaSend wsaBuf)

/-- The session, on this kernel. -/
def port : SessionPort Sender SessionCall :=
  { SessionPort.alone self fun _ => Prog.query (.handle []) with wsaSend := wsaSend }

/-- Every `WSASend` is posted. -/
def posting : Answers Sender SessionCall
  | _, _, .wsaSend _, result => result.posted = true
  | _, _, _, _ => True

/-- The kernel completes an operation with `n` bytes, as they are in the buffer
at that moment. -/
def complete (op : Outgoing) (n : Nat) (i : Nat) (s : Sender) : Sender :=
  { s with
    inFlight := s.inFlight.eraseIdx i
    sent := s.sent ++ (s.region op.wsaBuf).take n }

/-- The states any order of calls leads to from `s₀`. -/
inductive Reachable (s₀ : Sender) : Sender → Prop where
  | start : Reachable s₀ s₀
  /-- `SendPacket` on an object at least as long as its header says. -/
  | sendPacket {s s' : Sender} {packet : List UInt8} {accept : Bool} :
      Reachable s₀ s → 1 ≤ packets.size packet → packets.size packet ≤ packet.length →
      Prog.Exec posting (Session.sendPacket port packet) s (.ok (accept, s')) →
      Reachable s₀ (if accept then
        { s' with accepted := s'.accepted ++ [packet.take (packets.size packet)] } else s')
  /-- A completion of an operation in flight, and its `OnWrite`. -/
  | onWrite {s s' : Sender} {op : Outgoing} {i n : Nat} {success : Bool} :
      Reachable s₀ s → s.inFlight[i]? = some op → 1 ≤ n → n ≤ op.wsaBuf.len →
      Prog.Exec posting (Session.onWrite port n) (s.complete op n i) (.ok (success, s')) →
      Reachable s₀ s'

/-- An empty write buffer and nothing in flight. -/
structure Fresh (s : Sender) : Prop where
  empty : s.session.writeOv_.writePos_ = s.session.writeOv_.readPos_
  low : s.session.writeOv_.readPos_ < OverlappedEx.getSize
  idle : s.session.isSending_ = false
  inFlight : s.inFlight = []
  sent : s.sent = []
  accepted : s.accepted = []

/-! ## the invariant -/

open Session OverlappedEx

/-- With `waiting` in the buffer, what was sent and what waits make up `total`,
and while sending exactly one operation is in flight, for a prefix of what
waits. -/
structure Inv (total waiting : List UInt8) (s : Sender) : Prop where
  queued : s.session.Queued waiting
  whole : s.sent ++ waiting = total
  idle : s.session.isSending_ = false → waiting = [] ∧ s.inFlight = []
  sending : s.session.isSending_ = true → ∃ n, 1 ≤ n ∧ n ≤ waiting.length ∧
    s.inFlight = [⟨⟨s.session.writeOv_.readPos_, n⟩, waiting.take n⟩]

variable {total w : List UInt8} {s : Sender}

/-- The bytes an operation in flight points to are still those it was posted
with. -/
theorem Inv.region (h : Inv total w s) {op : Outgoing} (hop : op ∈ s.inFlight) :
    s.region op.wsaBuf = op.data := by
  cases hsending : s.session.isSending_ with
  | false =>
      rw [(h.idle hsending).2] at hop
      exact absurd hop List.not_mem_nil
  | true =>
      obtain ⟨n, -, hn, hops⟩ := h.sending hsending
      rw [hops, List.mem_singleton] at hop
      subst hop
      have hslice := Mirror.take_slice s.session.writeOv_.buffer_ s.session.writeOv_.readPos_ hn
      rw [h.queued.holds.slice] at hslice
      exact hslice.symm

theorem Fresh.inv (h : Fresh s) : Inv s.accepted.flatten [] s where
  queued := by
    have hlow := h.low
    exact ⟨.nil h.empty (by omega), hlow, Nat.zero_le _⟩
  whole := by rw [h.sent, h.accepted]; rfl
  idle _ := ⟨rfl, h.inFlight⟩
  sending hs := by
    rw [h.idle] at hs
    exact Bool.noConfusion hs

/-! ## one step -/

/-- Posting all that waits. -/
theorem wp_registerWriteInternal (hqueued : s.session.Queued w) (hwhole : s.sent ++ w = total)
    (hne : 1 ≤ w.length) (hsending : s.session.isSending_ = true) (hinFlight : s.inFlight = []) :
    Prog.wp posting (fun _ => False) (registerWriteInternal port) (fun b s' => b = true ∧
      s'.accepted = s.accepted ∧ Inv total w s') s := by
  refine Session.wp_registerWriteInternal port hsending ?_
  obtain ⟨hq, hbuf⟩ := hqueued.prepareSend
  simp only [port, SessionPort.alone, wsaSend, self, Prog.wp_done, Prog.bind_eq, Prog.wp_bind,
    Prog.wp_modify, Prog.wp_query]
  intro r hr
  rw [if_pos (show r.posted = true from hr)]
  refine ⟨trivial, trivial, hq, hwhole, fun h => ?_, fun _ => ⟨w.length, hne, le_rfl, ?_⟩⟩
  · exact Bool.noConfusion (hsending.symm.trans h)
  · simp only [hinFlight, List.nil_append, hbuf, Sender.region, List.take_length]
    congr 2
    exact hqueued.holds.slice

/-- `SendPacket` on a reachable state. -/
theorem wp_sendPacket (h : Inv total w s) {packet : List UInt8} (hsize : 1 ≤ packets.size packet)
    (hobj : packets.size packet ≤ packet.length) :
    Prog.wp posting (fun _ => False) (sendPacket port packet) (fun b s' => s'.accepted = s.accepted ∧
      ∃ w', Inv (if b then total ++ packet.take (packets.size packet) else total) w' s') s := by
  have hlen : (packet.take (packets.size packet)).length = packets.size packet :=
    List.length_take_of_le hobj
  refine Session.wp_sendPacket port h.queued hobj (fun _ => ⟨rfl, w, h⟩) fun hroom => ?_
  have hq := h.queued.queue (packet.take (packets.size packet)) (by omega)
  have hwhole : s.sent ++ (w ++ packet.take (packets.size packet)) =
      total ++ packet.take (packets.size packet) := by rw [← List.append_assoc, h.whole]
  cases hsending : s.session.isSending_ with
  | true =>
      obtain ⟨n, hn, hle, hops⟩ := h.sending hsending
      change if s.session.isSending_ = true then _ else _
      rw [if_pos hsending]
      refine ⟨rfl, _, hq, hwhole, fun hs => ?_, fun _ => ⟨n, hn, ?_, ?_⟩⟩
      · exact Bool.noConfusion (hsending.symm.trans hs)
      · rw [List.length_append]
        omega
      · rw [List.take_append_of_le_length hle]
        exact hops
  | false =>
      obtain ⟨rfl, hinFlight⟩ := h.idle hsending
      change if s.session.isSending_ = true then _ else _
      rw [if_neg (by simp [hsending])]
      refine Prog.wp_mono (fun b s' hb => ?_) (wp_registerWriteInternal
        (w := packet.take (packets.size packet)) ⟨hq.holds, hq.low, hq.fits⟩ hwhole (by omega) rfl
        hinFlight)
      obtain ⟨rfl, hacc, hinv⟩ := hb
      exact ⟨hacc, _, hinv⟩

/-- A completion and its `OnWrite` on a reachable state. -/
theorem wp_onWrite (h : Inv total w s) {op : Outgoing} {i n : Nat} (hop : s.inFlight[i]? = some op)
    (hn : n ≤ op.wsaBuf.len) :
    Prog.wp posting (fun _ => False) (onWrite port n) (fun _ s' => s'.accepted = s.accepted ∧
      ∃ w', Inv total w' s') (s.complete op n i) := by
  have hmem : op ∈ s.inFlight := List.mem_of_getElem? hop
  have hregion := h.region hmem
  cases hsending : s.session.isSending_ with
  | false =>
      rw [(h.idle hsending).2] at hmem
      exact absurd hmem List.not_mem_nil
  | true =>
      obtain ⟨m, hm, hle, hops⟩ := h.sending hsending
      rw [hops, List.mem_singleton] at hmem
      have hempty : (s.complete op n i).inFlight = [] := by
        rw [hops] at hop
        cases i with
        | zero => simp only [complete, hops, List.eraseIdx_zero, List.tail_cons]
        | succ i => simp at hop
      subst hmem
      have hsent : (s.complete ⟨⟨s.session.writeOv_.readPos_, m⟩, w.take m⟩ n i).sent ++ w.drop n =
          total := by
        rw [complete, hregion, List.take_take, min_eq_left hn, List.append_assoc,
          List.take_append_drop, h.whole]
      have hnw : n ≤ w.length := hn.trans hle
      have hq := h.queued.sentOff hnw
      refine Session.wp_onWrite port h.queued hsending hnw rfl (fun hall => ?_)
        fun hmore => ?_
      · refine ⟨rfl, w.drop n, ⟨hq.holds, hq.low, hq.fits⟩, hsent, fun _ => ⟨?_, hempty⟩, fun hs => ?_⟩
        · rw [hall, List.drop_length]
        · exact Bool.noConfusion hs
      · refine Prog.wp_mono (fun b s' hb => ?_) (wp_registerWriteInternal hq hsent ?_ hsending hempty)
        · exact ⟨hb.2.1, _, hb.2.2⟩
        · rw [List.length_drop]
          omega

/-! ## every run -/

/-- Every reachable state satisfies the invariant, for the accepted packets. -/
theorem Reachable.inv {s₀ : Sender} (h₀ : Fresh s₀) (hs : Reachable s₀ s) :
    ∃ w, Inv s.accepted.flatten w s := by
  induction hs with
  | start => exact ⟨[], h₀.inv⟩
  | @sendPacket s s' packet accept _ hsize hobj hexec ih =>
      obtain ⟨w, hw⟩ := ih
      obtain ⟨hacc, w', hw'⟩ := hexec.post (wp_sendPacket hw hsize hobj)
      cases accept with
      | false =>
          rw [if_neg Bool.false_ne_true] at hw' ⊢
          rw [hacc]
          exact ⟨w', hw'⟩
      | true =>
          rw [if_pos rfl] at hw' ⊢
          refine ⟨w', ?_⟩
          rw [hacc, List.flatten_append, List.flatten_singleton]
          exact ⟨hw'.queued, hw'.whole, hw'.idle, hw'.sending⟩
  | @onWrite s s' op i n success _ hop _ hn hexec ih =>
      obtain ⟨w, hw⟩ := ih
      obtain ⟨hacc, hw'⟩ := hexec.post (wp_onWrite hw hop hn)
      rw [hacc]
      exact hw'

/-- The bytes of `[readPos_, writePos_)`. -/
def waiting (s : Sender) : List UInt8 :=
  s.session.writeOv_.buffer_.slice s.session.writeOv_.readPos_ s.session.writeOv_.available

/-- **Send stream integrity**: from an empty write buffer, after any calls and
completions in any order, the bytes the kernel has sent followed by those that
wait are the accepted packets one after the other; the bytes of an operation in
flight have not changed since it was posted; and no call leaves the buffer or
fails an assertion. -/
theorem sent_append_waiting (s₀ s : Sender) (h₀ : Fresh s₀) (hs : Reachable s₀ s) :
    s.sent ++ s.waiting = s.accepted.flatten ∧
    (∀ op ∈ s.inFlight, s.region op.wsaBuf = op.data) ∧
    (∀ packet e, 1 ≤ packets.size packet → packets.size packet ≤ packet.length →
      ¬ Prog.Exec posting (Session.sendPacket port packet) s (.error e)) ∧
    ∀ op i n e, s.inFlight[i]? = some op → n ≤ op.wsaBuf.len →
      ¬ Prog.Exec posting (Session.onWrite port n) (s.complete op n i) (.error e) := by
  obtain ⟨w, hw⟩ := hs.inv h₀
  refine ⟨?_, fun op hop => hw.region hop, fun packet e hsize hobj hexec => ?_,
    fun op i n e hop hn hexec => ?_⟩
  · rw [waiting, hw.queued.available, hw.queued.holds.slice, hw.whole]
  · exact hexec.tolerated (wp_sendPacket hw hsize hobj)
  · exact hexec.tolerated (wp_onWrite hw hop hn)

/-! ### a partial completion -/

/-- One event of a schedule: a call of `SendPacket`, or a completion of the `i`-th
operation in flight with `n` bytes. -/
inductive Event where
  | sendPacket (packet : List UInt8)
  | onWrite (i n : Nat)

/-- Every `WSASend` succeeds at once. -/
def succeeding : ∀ β : Type, Sender → SessionCall β → β
  | _, _, .getState _ => none
  | _, _, .setState _ _ => true
  | _, _, .connectSession _ => true
  | _, _, .disconnectSession _ => ()
  | _, _, .handle _ => true
  | _, _, .wsaRecv _ => .ok
  | _, _, .wsaSend _ => .ok
  | _, _, .disconnectEx => (1, 0)

theorem posting_succeeding (β : Type) (s : Sender) (q : SessionCall β) :
    posting β s q (succeeding β s q) := by
  cases q <;> trivial

/-- An event, if it can happen and nothing faults. -/
def event (s : Sender) : Event → Option Sender
  | .sendPacket packet =>
      if 1 ≤ packets.size packet ∧ packets.size packet ≤ packet.length then
        match Prog.run succeeding (Session.sendPacket port packet) s with
        | .ok (accept, s') => some (if accept then
            { s' with accepted := s'.accepted ++ [packet.take (packets.size packet)] } else s')
        | .error _ => none
      else none
  | .onWrite i n =>
      s.inFlight[i]?.bind fun op =>
        if 1 ≤ n ∧ n ≤ op.wsaBuf.len then
          match Prog.run succeeding (Session.onWrite port n) (s.complete op n i) with
          | .ok (_, s') => some s'
          | .error _ => none
        else none

/-- The events of a schedule, one after the other. -/
def play : List Event → Sender → Option Sender
  | [], s => some s
  | e :: es, s => (s.event e).bind (play es)

theorem Reachable.event {s₀ s' : Sender} {e : Event} (hs : Reachable s₀ s)
    (h : s.event e = some s') : Reachable s₀ s' := by
  cases e with
  | sendPacket packet =>
      simp only [Sender.event] at h
      split_ifs at h with hsize
      have hexec := Prog.exec_run posting_succeeding (Session.sendPacket port packet) s
      cases hrun : Prog.run succeeding (Session.sendPacket port packet) s with
      | error e => simp [hrun] at h
      | ok r =>
          rw [hrun] at h hexec
          obtain rfl := Option.some.inj h
          exact hs.sendPacket hsize.1 hsize.2 hexec
  | onWrite i n =>
      obtain ⟨op, hop, h⟩ := Option.bind_eq_some_iff.mp h
      split_ifs at h with hn
      have hexec := Prog.exec_run posting_succeeding (Session.onWrite port n) (s.complete op n i)
      cases hrun : Prog.run succeeding (Session.onWrite port n) (s.complete op n i) with
      | error e => simp [hrun] at h
      | ok r =>
          rw [hrun] at h hexec
          obtain rfl := Option.some.inj h
          exact hs.onWrite hop hn.1 hn.2 hexec

/-- Where a schedule leads to is reachable. -/
theorem Reachable.play {s₀ s' : Sender} {es : List Event} (hs : Reachable s₀ s)
    (h : s.play es = some s') : Reachable s₀ s' := by
  induction es generalizing s with
  | nil =>
      obtain rfl := Option.some.inj h
      exact hs
  | cons e es ih =>
      obtain ⟨s₁, he, hes⟩ := Option.bind_eq_some_iff.mp h
      exact ih (hs.event he) hes

/-- A packet posted, another queued behind it, and three bytes of the first one
sent. -/
theorem sent_append_waiting_partial : ∃ s : Sender,
    (s.sent, s.accepted, s.session.isSending_, s.inFlight.map (·.data)) =
      ([5, 0, 1], [[5, 0, 1, 0, 7], [6, 0, 2, 0, 8, 9]], true, [[0, 7, 6, 0, 2, 0, 8, 9]]) ∧
    s.sent ++ s.waiting = s.accepted.flatten ∧
    (∀ op ∈ s.inFlight, s.region op.wsaBuf = op.data) ∧
    (∀ packet e, 1 ≤ packets.size packet → packets.size packet ≤ packet.length →
      ¬ Prog.Exec posting (Session.sendPacket port packet) s (.error e)) ∧
    ∀ op i n e, s.inFlight[i]? = some op → n ≤ op.wsaBuf.len →
      ¬ Prog.Exec posting (Session.onWrite port n) (s.complete op n i) (.error e) := by
  have hplay : ((play [.sendPacket [5, 0, 1, 0, 7], .sendPacket [6, 0, 2, 0, 8, 9], .onWrite 0 3]
      ⟨{}, [], [], []⟩).map fun s =>
        (s.sent, s.accepted, s.session.isSending_, s.inFlight.map (·.data))) =
      some ([5, 0, 1], [[5, 0, 1, 0, 7], [6, 0, 2, 0, 8, 9]], true, [[0, 7, 6, 0, 2, 0, 8, 9]]) := by
    decide +kernel
  obtain ⟨s, hs, hvals⟩ := Option.map_eq_some_iff.mp hplay
  exact ⟨s, hvals, sent_append_waiting ⟨{}, [], [], []⟩ s ⟨rfl, by decide, rfl, rfl, rfl, rfl⟩
    (Reachable.start.play hs)⟩

end Sender

end ServerStudy
