import ServerStudy.Session.Isolation.Packets
import ServerStudy.Threads.Play

/-!
# ServerStudy.Session.Isolation.Runs

The session in every run.

* `stays_connected` — while the session itself sends nothing it stays connected and no thread
  faults, as long as nobody relays a chat of 65528 bytes to it while it is idle, its welcome
  packet finds room, what the others have executed is proper, and no `Broadcast` loses a
  pointer to a third session;
* `longChat_disconnects` — such a chat disconnects it.
-/

namespace ServerStudy

namespace Isolation

variable {α β : Type} {s s' : Neighbour} {reg : Other}

/-! ## every run -/

variable {ι : Type} [Fintype ι] [DecidableEq ι]

theorem Born.sheltered (h : Born s) : Sheltered s := by
  refine ⟨fun e he => ?_, fun x hx => ?_, h.found⟩
  · rw [h.requests] at he
    exact absurd he List.not_mem_nil
  · rw [h.executed] at hx
    exact absurd hx List.not_mem_nil

theorem Born.sane (h : Born s) : Sane s 0 := by
  have hlow := h.low
  have hposted : s.receive ≠ .posted := by
    rw [h.receive]
    exact Receive.noConfusion
  have hdue : due s 0 = 0 := by
    rw [due, h.outstanding]
    rfl
  have hqueued : s.session.Queued [] := ⟨.nil h.empty (by omega), h.low, Nat.zero_le _⟩
  refine ⟨⟨[], sends_of_due hdue (.none hqueued h.idle)⟩, receives_none (F := 0) rfl
    (fun _ => hposted) (fun _ => ⟨h.readPos, h.writePos, ?_⟩) fun hp => absurd hp hposted⟩
  rw [h.state]
  exact SessionState.noConfusion

/-- From a good state on, the session stays connected until a receive of it completes. -/
theorem connected_of_quiet {c c' : Config client ι} {R : ι → Multiset Duty}
    (hgood : Good discipline successful c R) (hg : Sheltered c.shared)
    (hquiet : c.shared.receive ≠ .handling) (hconn : c.shared.state = .kConnected)
    (hrun : Config.Reach successful Sheltered c c') (hheard : c'.shared.heard = c.shared.heard) :
    c'.shared.state = .kConnected := by
  have hall : Sheltered c'.shared ∧ c.shared.heard ≤ c'.shared.heard ∧
      (c'.shared.heard = c.shared.heard →
        c'.shared.receive ≠ .handling ∧ c'.shared.state = .kConnected) ∧
      ∃ R, Good discipline successful c' R := by
    clear hheard
    induction hrun with
    | refl => exact ⟨hg, le_rfl, fun _ => ⟨hquiet, hconn⟩, R, hgood⟩
    | @step c₁ c₂ t _ hstep hg₂ ih =>
        obtain ⟨hg₁, hle, hstays, R₁, hgood₁⟩ := ih
        obtain ⟨hchange, r, hgood₂⟩ := hgood₁.step sound hstep hg₁ hg₂
        have hkeeps : Keeps c₁.shared c₂.shared := by
          rcases hchange with hsame | ⟨-, hchange⟩
          · rw [hsame]
            exact .same rfl rfl rfl
          · exact hchange
        refine ⟨hg₂, hle.trans hkeeps.heard, fun hheard => ?_, _, hgood₂⟩
        have hle₂ := hkeeps.heard
        obtain ⟨hquiet₁, hconn₁⟩ := hstays (by omega)
        exact ⟨hkeeps.quiet (by omega) hquiet₁, hkeeps.connected hquiet₁ hconn₁⟩
  exact (hall.2.2.1 hheard).2

/-- **Other clients do not disconnect a session.**  In a run in which nothing harmful is asked of
it, the others' packets are proper and no pointer is lost, from any state in which the session is
connected and no bytes of it are being handled, it stays connected as long as it sends nothing;
and no thread faults. -/
theorem stays_connected (s : Neighbour) (hs : Born s) (clients : ι → Other)
    (hclients : ∀ t, (clients t).Ready) (c c' : Config client ι)
    (hc : Config.Reach successful Sheltered (start s clients) c)
    (hquiet : c.shared.receive ≠ .handling) (hconn : c.shared.state = .kConnected)
    (hrun : Config.Reach successful Sheltered c c') (hheard : c'.shared.heard = c.shared.heard) :
    c'.shared.state = .kConnected ∧ ∀ t e, ¬ c'.Faults successful t e := by
  have hstart : Good discipline successful (start s clients) fun _ => 0 := by
    refine ⟨?_, fun t => ⟨hclients t, rfl⟩⟩
    rw [Finset.sum_const_zero]
    exact hs.sane
  obtain ⟨hg, R, hgood⟩ := hstart.run sound hs.sheltered hc
  refine ⟨connected_of_quiet hgood hg hquiet hconn hrun hheard, fun t e hfault => ?_⟩
  obtain ⟨hg', R', hgood'⟩ := hgood.run sound hg hrun
  exact hgood'.tolerated hg' hfault

/-! ## two runs -/

/-- Everything succeeds, and `Broadcast` gets to the session. -/
def grants : ∀ β : Type, Neighbour × Other → Calls β → β
  | _, _, .inl (.getState _) => some SessionState.kConnected.toNat
  | _, _, .inl (.setState _ _) | _, _, .inl (.connectSession _) | _, _, .inl (.handle _) => true
  | _, _, .inl (.disconnectSession _) => ()
  | _, _, .inl (.wsaRecv _) | _, _, .inl (.wsaSend _) => .ok
  | _, _, .inl .disconnectEx => (0, 0)
  | _, _, .inr .reaches | _, _, .inr .finds | _, _, .inr (.handle _) => true
  | _, _, .inr .setsockopt => 0
  | _, _, .inr (.wsaRecv _) | _, _, .inr (.wsaSend _ _) => .ok
  | _, _, .inr .disconnectEx => (0, 0)

theorem successful_grants (β : Type) (s : Neighbour × Other) (q : Calls β) :
    successful β s q (grants β s q) := by
  rcases q with q | q
  · trivial
  · cases q with
    | setsockopt => exact fun h => by cases h
    | wsaRecv wsaBuf => rfl
    | wsaSend relayed wsaBuf => exact fun _ => rfl
    | _ => trivial

instance (β : Type) (s : Neighbour × Other) (q : Calls β) :
    Decidable (successful β s q (grants β s q)) := isTrue (successful_grants β s q)

instance (op : Op) (l : Other) : Decidable (client.can op l) :=
  match op with
  | .recv chunk => decidable_of_iff
      (l.receiving = true ∧ chunk.length ≤ l.session.readOv_.wsaBuf_.len)
      ⟨fun h _ he => Op.recv.inj he ▸ h, fun h => h chunk rfl⟩
  | .accept => isTrue fun _ h => Op.noConfusion h
  | .sent _ _ => isTrue fun _ h => Op.noConfusion h
  | .heard _ => isTrue fun _ h => Op.noConfusion h

instance (header : PacketHeader) : Decidable (LongChat header) :=
  inferInstanceAs (Decidable (_ ∧ _))

instance (e : Request) : Decidable e.Harmless :=
  match e with
  | ⟨some header, _, sending, _⟩ => inferInstanceAs (Decidable (LongChat header → sending = true))
  | ⟨none, size, _, waiting⟩ => inferInstanceAs (Decidable (waiting + size ≤ OverlappedEx.getSize))

instance (x : Executed) : Decidable x.Proper :=
  decidable_of_iff (PacketHandler.Registered x.header.id ∧
    (x.header.id.toNat = C2SPacketId.kMove.toNat → x.off + 12 ≤ 2 * OverlappedEx.getSize))
    ⟨fun ⟨h, h'⟩ => ⟨h, h'⟩, fun h => ⟨h.registered, h.mapped⟩⟩

instance : DecidablePred Sheltered := fun s =>
  decidable_of_iff ((∀ e ∈ s.requests, e.Harmless) ∧ (∀ x ∈ s.executed, x.Proper) ∧ s.lost = 0)
    ⟨fun ⟨h₁, h₂, h₃⟩ => ⟨h₁, h₂, h₃⟩, fun h => ⟨h.harmless, h.proper, h.found⟩⟩

/-- A session that has just been created, in slot 1. -/
def pending : Neighbour where
  session := { handle_ := 1, sessionManager_ := true, listener_ := true }
  state := .kPending
  accepting := true
  receive := .unposted
  outstanding := []
  heard := 0
  requests := []
  executed := []
  lost := 0

theorem born_pending : Born pending :=
  ⟨rfl, rfl, rfl, rfl, rfl, rfl, by decide, rfl, rfl, rfl, rfl, rfl⟩

/-- A client in slot 0, with a receive outstanding. -/
def other : Other where
  session := { readOv_ := { ioType_ := .kRecv, wsaBuf_ := ⟨0, OverlappedEx.getSize⟩ }
               handle_ := 0
               sessionManager_ := true
               listener_ := true }
  receiving := true

theorem ready_other : other.Ready := fun _ =>
  ⟨[], ⟨.nil rfl (Nat.zero_le _), Nat.zero_le _, by decide, rfl⟩⟩

/-- The session is accepted, and its welcome packet is sent. -/
def accepted {ι : Type} (t : ι) : List (ι × Config.Move client) :=
  [(t, .whole Op.accept), (t, .whole (Op.sent 0 6))]

/-- Two clients send a chat of five bytes, in two parts, and a move. -/
def chats {ι : Type} (t u : ι) : List (ι × Config.Move client) :=
  [(t, .whole (Op.recv [5, 0, 2])), (u, .whole (Op.recv [12, 0, 1, 0, 1, 2, 3, 4, 5, 6, 7, 8])),
    (t, .whole (Op.recv [0, 65])), (u, .whole (Op.sent 0 20))]

theorem stays_connected_chat : ∃ c c' : Config client (Fin 2),
    Config.Reach successful Sheltered (start pending fun _ => other) c ∧
      Config.Reach successful Sheltered c c' ∧ c'.shared.executed.length = 2 ∧
      c'.shared.outstanding = [13] ∧ c'.shared.state = .kConnected ∧
      ∀ t e, ¬ c'.Faults successful t e := by
  have hplay : ((Config.play successful grants Sheltered (accepted 0)
      (start pending fun _ : Fin 2 => other)).map fun c => ((c.shared.receive, c.shared.state),
        c.shared.heard, (Config.play successful grants Sheltered (chats 0 1) c).map fun c' =>
          ((c'.shared.executed.length, c'.shared.heard), c'.shared.outstanding))) =
      some ((.posted, .kConnected), 0, some ((2, 0), [13])) := by decide +kernel
  obtain ⟨c, hc, hvals⟩ := Option.map_eq_some_iff.mp hplay
  simp only [Prod.mk.injEq] at hvals
  obtain ⟨⟨hreceive, hstate⟩, hheard, hnext⟩ := hvals
  obtain ⟨c', hc', hvals'⟩ := Option.map_eq_some_iff.mp hnext
  simp only [Prod.mk.injEq] at hvals'
  obtain ⟨⟨hexecuted, hheard'⟩, houtstanding⟩ := hvals'
  obtain ⟨hreach, hsheltered⟩ := Config.Reach.play .refl born_pending.sheltered hc
  obtain ⟨hrun, -⟩ := Config.Reach.play .refl hsheltered hc'
  have hquiet : c.shared.receive ≠ .handling := by
    rw [hreceive]
    exact Receive.noConfusion
  exact ⟨c, c', hreach, hrun, hexecuted, houtstanding, stays_connected pending born_pending _
    (fun _ => ready_other) c c' hreach hquiet hstate hrun (hheard'.trans hheard.symm)⟩

/-! ## a long chat -/

/-- Everything is answered so. -/
def granted : Answers (Neighbour × Other) Calls := fun β s q a => a = grants β s q

theorem Granted.weaken {p : Prog (Neighbour × Other) Calls Fault α} {s : Neighbour × Other}
    {x : Except Fault (α × (Neighbour × Other))} (h : Prog.Exec granted p s x) :
    Prog.Exec successful p s x := h.weaken fun _ _ _ _ ha => ha ▸ successful_grants _ _ _

/-- Runs of what is granted that do not fault. -/
abbrev Runs (p : Prog (Neighbour × Other) Calls Fault α)
    (post : α → Neighbour × Other → Prop) (s : Neighbour × Other) : Prop :=
  Prog.wp granted (fun _ => False) p post s

theorem runs_query (q : Calls β) {post : β → Neighbour × Other → Prop} {x : Neighbour × Other}
    (h : post (grants β x q) x) : Runs (Prog.query q) post x := by
  rintro a rfl
  exact h

/-- `SendPacket` of nothing to an idle session posts a `WSASend` of nothing. -/
theorem runs_send (hqueued : s.session.Queued []) (hidle : s.session.isSending_ = false)
    (hnone : s.outstanding = []) {cause : Option PacketHeader} {packet : List UInt8}
    (hzero : packets.size packet = 0) {post : Bool → Neighbour × Other → Prop}
    (hpost : ∀ s', s'.outstanding = [0] → s'.state = s.state → s'.heard = s.heard →
      post true (s', reg)) : Runs (send cause packet) post (s, reg) := by
  unfold send
  rw [Runs, Prog.wp_atomically, Prog.bind_eq, Prog.wp_bind, Prog.wp_modify]
  have hqueued₁ : (s.note cause packet).session.Queued [] := hqueued
  refine Session.wp_sendPacket (port cause.isSome) hqueued₁ (by omega) (fun hfull => ?_) fun _ => ?_
  · rw [hzero] at hfull
    exact absurd hfull (by decide)
  · change if s.session.isSending_ = true then _ else _
    rw [if_neg (by rw [hidle]; exact Bool.false_ne_true), hzero, List.take_zero]
    have hjoined := (hqueued.queue [] (Nat.zero_le _)).withSending true
    refine Session.wp_registerWriteInternal _ rfl ?_
    refine Prog.wp_bind.mpr (runs_query (.inr (.wsaSend cause.isSome _)) ?_)
    refine hpost _ ?_ rfl rfl
    have hlen := congrArg WsaBuf.len hjoined.prepareSend.2
    change s.outstanding ++ [_] = [0]
    rw [hnone, List.nil_append]
    exact congrArg (fun n => [n]) hlen

/-- `Execute` on a chat makes the relayed packet of it. -/
theorem runs_execute {l : Other} {u : List UInt8} (hholds : l.session.readOv_.Holds u)
    (hid : (PacketHeader.ofBytes u).id.toNat = 2) (h4 : 4 ≤ packets.size u)
    (hle : packets.size u ≤ u.length) {post : Bool → Neighbour × Other → Prop}
    (hpost : ∀ x data, packets.size data = (packets.size u + 8) % 65536 →
      Runs (relay (PacketHeader.ofBytes u) data l.session.handle_)
        (fun b x => post (if b then true else false) x)
        ({ s with executed := x :: s.executed }, l)) :
    Runs (execute l.session.readOv_.readPos_) post (s, l) := by
  have hlt := (PacketHeader.ofBytes u).size.toNat_lt
  have hmapped := hholds.mapped
  rw [packets_size] at h4 hle hpost
  have hheader := load_header hholds (by omega)
  have hget : ∀ s : Neighbour, own.get (s, l) = l.session := fun _ => rfl
  obtain ⟨payload, hpayload, hlen⟩ := exists_load l.session.readOv_
    (l.session.readOv_.readPos_ + PacketHeader.sizeOf) ((PacketHeader.ofBytes u).size.toNat - 4) (by
      rw [PacketHeader.sizeOf]
      omega)
  have hsub : sub64 (PacketHeader.ofBytes u).size.toNat PacketHeader.sizeOf =
      (PacketHeader.ofBytes u).size.toNat - 4 := sub64_of_le h4 (by omega)
  rw [← hsub] at hpayload
  obtain ⟨data, hdata, -, hsize⟩ := exists_chatPacket h4 l.session.handle_ hlen
  unfold execute PacketHandler.execute
  rw [Runs, Prog.bind_eq, Prog.wp_bind]
  refine (Prog.wp_lens_view (by simpa only [hget] using hheader)).mpr ?_
  rw [Prog.bind_eq, Prog.wp_bind, Prog.wp_modify, Prog.bind_eq, Prog.wp_bind]
  refine (Prog.wp_lens_view (by simpa only [hget] using hheader)).mpr ?_
  rw [PacketHandler.handlers_get?, hid]
  change Prog.wp granted _ (PacketHandler.handleC2SChat own _ _) post _
  unfold PacketHandler.handleC2SChat
  rw [Prog.bind_eq, Prog.wp_bind]
  refine (Prog.wp_lens_view (by simpa only [hget] using hheader)).mpr ?_
  rw [Prog.bind_eq, Prog.wp_bind, Prog.wp_lens_read, hget, Prog.bind_eq, Prog.wp_bind]
  rw [Prog.wp_lens_view (b := payload) (by simpa only [hget] using hpayload), Prog.bind_eq,
    Prog.wp_bind, hdata, Prog.wp_lift_ok, Prog.bind_eq, Prog.wp_bind]
  refine Prog.wp_mono (fun b x hb => ?_) (hpost _ data hsize)
  cases b <;> exact hb

theorem runs_registerReadOwn {l : Other} (hholds : l.session.readOv_.Holds [])
    {post : Bool → Neighbour × Other → Prop} (hpost : ∀ l', post true (s, l')) :
    Runs (Session.registerRead ownPort) post (s, l) := by
  have hroom := hholds.room_eq (Nat.zero_le _)
  unfold Session.registerRead
  rw [Runs, Prog.bind_eq, Prog.wp_bind]
  refine (Prog.wp_lens_update rfl).mpr ?_
  change Prog.wp granted _ (if toULong (add64 (sub64 OverlappedEx.getSize
    l.session.readOv_.writePos_) l.session.readOv_.readPos_) = 0 then _ else _) post _
  rw [hroom, if_neg (by decide), Prog.bind_eq, Prog.wp_bind, Prog.wp_lens_modify, Prog.bind_eq,
    Prog.wp_bind, Prog.wp_lens_read, Prog.bind_eq, Prog.wp_bind]
  refine Prog.wp_bind.mpr ?_
  rw [Prog.wp_lens_read]
  exact Prog.wp_bind.mpr (Prog.wp_bind.mpr (runs_query (.inl (.wsaRecv _)) (hpost _)))

theorem runs_relay {header : PacketHeader} {packet : List UInt8} {sessionHandle : UInt64}
    {post : Bool → Neighbour × Other → Prop} {x : Neighbour × Other}
    (h : Runs (send (some header) packet) (fun _ x => post true x) x) :
    Runs (relay header packet sessionHandle) post x := by
  have hpass : ∀ {post : Unit → Neighbour × Other → Prop} {x}, post () x → Runs pass post x :=
    fun hpost => Prog.wp_bind.mpr (runs_query (.inr .finds) hpost)
  refine Prog.wp_bind.mpr (hpass (Prog.wp_bind.mpr (runs_query (.inr .reaches) ?_)))
  refine Prog.wp_bind.mpr (Prog.wp_mono (fun _ y hy => ?_) h)
  exact Prog.wp_bind.mpr (hpass hy)

/-- Of a client's chat: it is waiting to be parsed, or it was relayed as nothing. -/
def Relaying (s : Neighbour) (chunk u : List UInt8) (x : Neighbour × Other) : Prop :=
  (u = chunk ∧ x.1 = s ∧ x.2.session.readOv_.Holds chunk) ∨
    (u = [] ∧ x.2.session.readOv_.Holds [] ∧ x.1.outstanding = [0] ∧ x.1.state = s.state ∧
      x.1.heard = s.heard)

/-- A long chat that arrives as a whole is relayed as nothing. -/
theorem runs_recv {l : Other} {chunk : List UInt8} (hholds : l.session.readOv_.Holds [])
    (hbuf : l.session.readOv_.wsaBuf_.buf = l.session.readOv_.writePos_)
    (hmap : l.session.readOv_.readPos_ + ([] : List UInt8).length + chunk.length ≤
      2 * OverlappedEx.getSize)
    (hlong : LongChat (PacketHeader.ofBytes chunk)) (hsize : packets.size chunk = chunk.length)
    (hqueued : s.session.Queued []) (hidle : s.session.isSending_ = false)
    (hnone : s.outstanding = []) {post : Unit → Neighbour × Other → Prop}
    (hpost : ∀ s' l', s'.outstanding = [0] → s'.state = s.state → s'.heard = s.heard →
      post () (s', l')) : Runs (prog (.recv chunk)) post (s, l) := by
  have hlen : chunk.length = 65528 := by
    rw [← hsize, packets_size]
    have := hlong.2
    omega
  have hexec : ∀ u x, Relaying s chunk u x → 4 ≤ packets.size u → packets.size u ≤ u.length →
      Runs (ownPort.execute (ownPort.self.get x).readOv_.readPos_) (fun b x' =>
        if b then (ownPort.self.get x').readOv_ = (ownPort.self.get x).readOv_ ∧
          Relaying s chunk (u.drop (packets.size u)) (ownPort.self.set
            ((ownPort.self.get x').skip (packets.size u)) x')
        else False) x := by
    rintro u ⟨s₁, l₁⟩ (⟨rfl, rfl, hholds₁⟩ | ⟨rfl, -⟩) h4 hle
    · refine runs_execute hholds₁ hlong.1 h4 hle fun x data hdata => ?_
      have hzero : packets.size data = 0 := by
        rw [hdata, hsize, hlen]
      refine runs_relay (runs_send (s := { s₁ with executed := x :: s₁.executed }) hqueued hidle
        hnone hzero fun s' hout hstate hheard => ?_)
      refine ⟨rfl, .inr ⟨?_, ?_, hout, hstate, hheard⟩⟩
      · rw [hsize, List.drop_length]
      · have hconsumed := hholds₁.consume (le_of_eq hsize)
        rw [hsize, List.drop_length] at hconsumed
        rw [hsize]
        exact hconsumed
    · exact absurd h4 (by decide)
  have hframe : packets.cut chunk = ⟨[chunk], [], false⟩ := by
    have hnil : packets.cut [] = ⟨[], [], false⟩ := packets.cut_short (by decide)
    rw [packets.cut_frame (by rw [packets_header]; omega) (by rw [packets_header]; omega) hsize.le,
      hsize, List.drop_length, List.take_length, hnil]
  have hempty : chunk ≠ [] := fun h => by
    rw [h] at hlen
    exact absurd hlen (by decide)
  refine Prog.wp_bind.mpr ?_
  unfold dequeueOwn dispatchOwn IocpCore.dispatchBy
  rw [Prog.wp_modify]
  dsimp only
  rw [if_neg (fun h => hempty (List.eq_nil_of_length_eq_zero h)), Prog.bind_eq, Prog.wp_bind,
    Prog.wp_done, Prog.bind_eq, Prog.wp_bind]
  have hchunk : (({ l.session.readOv_ with
      buffer_ := l.session.readOv_.buffer_.write l.session.readOv_.wsaBuf_.buf chunk } :
        OverlappedEx).produce chunk.length).Holds chunk := by
    rw [hbuf]
    exact hholds.append chunk (by rw [List.length_nil, hlen]; decide) hmap
  refine Session.wp_onRead ownPort rfl ?_
  refine Prog.wp_mono (fun b x hb => ?_) (Session.wp_parse ownPort (R := fun _ => False)
    (I := Relaying s chunk) ?_ hexec _ chunk _ (.inl ⟨rfl, rfl, hchunk⟩) ?_)
  · have hstuck : ∀ malformed, ¬ Session.Stuck chunk malformed := fun malformed h => by
      have hframes := congrArg Cut.frames (hframe.symm.trans h)
      exact absurd hframes (List.cons_ne_nil _ _)
    cases b with
    | false =>
        obtain ⟨u, ⟨rfl, -⟩ | ⟨rfl, -⟩, hu⟩ := hb.resolve_right id
        · exact absurd hu (hstuck true)
        · have hnil : packets.cut [] = ⟨[], [], false⟩ := packets.cut_short (by decide)
          exact absurd (congrArg Cut.malformed (hnil.symm.trans hu)) Bool.false_ne_true
    | true =>
        obtain ⟨u, ⟨rfl, -⟩ | ⟨rfl, hu, hout, hstate, hheard⟩, hstop⟩ := hb
        · exact absurd hstop (hstuck false)
        · refine runs_registerReadOwn hu.rewind fun l' => ?_
          exact hpost _ _ hout hstate hheard
  · rintro u x (⟨rfl, -, hu⟩ | ⟨rfl, hu, -⟩)
    · exact hu
    · exact hu
  · exact Nat.lt_succ_of_le hchunk.available.ge

/-- A completion of nothing disconnects a connected session. -/
theorem runs_sent {l : Other} (hout : s.outstanding = [0]) (hstate : s.state = .kConnected)
    {post : Unit → Neighbour × Other → Prop}
    (hpost : ∀ s', s'.state = .kDisconnecting → s'.heard = s.heard → post () (s', l)) :
    Runs (prog (.sent 0 0)) post (s, l) := by
  refine Prog.wp_bind.mpr ?_
  unfold dequeueSend
  refine (Prog.wp_update_ok (r := (true, { s with outstanding := [] }, l)) ?_).mpr ?_
  · simp [hout]
  · refine Prog.wp_bind.mpr (Prog.wp_bind.mpr (Prog.wp_bind.mpr ((Session.wp_disconnectLocked
      (port_apart false)).mpr ?_)))
    rw [if_pos (.inr hstate)]
    refine Prog.wp_bind.mpr ?_
    rw [Prog.wp_lens_modify, Prog.bind_eq, Prog.wp_bind, Prog.wp_lens_read, Prog.bind_eq,
      Prog.wp_bind]
    refine Prog.wp_bind.mpr (runs_query (.inr .disconnectEx) ?_)
    exact hpost _ rfl rfl

/-- The header of a long chat, and zeros. -/
theorem exists_longChat : ∃ chunk : List UInt8, LongChat (PacketHeader.ofBytes chunk) ∧
    packets.size chunk = chunk.length ∧ chunk.length = 65528 := by
  refine ⟨PacketHeader.bytes ⟨65528, 2⟩ ++ List.replicate 65524 0, ?_⟩
  rw [packets_size, PacketHeader.ofBytes_bytes_append, List.length_append,
    PacketHeader.length_bytes, List.length_replicate]
  exact ⟨⟨rfl, rfl⟩, rfl, rfl⟩

/-- A run of an operation that is granted. -/
theorem reach_runs {c₀ c : Config client (Fin 1)} (op : Op)
    (hc : Config.Reach successful (fun _ => True) c₀ c) (hidle : (c.thread 0).running = none)
    (hcan : client.can op (c.thread 0).locals) {P : Neighbour → Prop}
    (hruns : Runs (prog op) (fun _ x => P x.1) (c.shared, (c.thread 0).locals)) :
    ∃ c', Config.Reach successful (fun _ => True) c₀ c' ∧ (c'.thread 0).running = none ∧
      P c'.shared := by
  have hanswered : ∀ β s (q : Calls β), ∃ a, granted β s q a := fun β s q => ⟨grants β s q, rfl⟩
  obtain ⟨⟨⟩, ⟨s', l'⟩, hexec, hP⟩ := Prog.exists_ok hanswered hruns
  exact ⟨_, hc.whole hidle hcan (Granted.weaken hexec), by simp [Config.setThread], hP⟩

/-- **A long chat disconnects an idle session**: it is relayed as a `WSASend` of nothing, whose
completion of nothing is taken for the end of the connection. -/
theorem longChat_disconnects : ∃ c c' : Config client (Fin 1),
    Config.Reach successful (fun _ => True) (start pending fun _ => other) c ∧
      c.shared.receive ≠ .handling ∧ c.shared.state = .kConnected ∧
      Config.Reach successful (fun _ => True) c c' ∧ c'.shared.heard = c.shared.heard ∧
      c'.shared.state = .kDisconnecting := by
  have hplay : ((Config.play successful grants (fun _ => True) (accepted 0)
      (start pending fun _ : Fin 1 => other)).map fun c => ((c.shared.receive, c.shared.state),
        c.shared.outstanding, c.shared.session.isSending_, c.shared.session.writeOv_.readPos_,
        c.shared.session.writeOv_.writePos_)) =
      some ((.posted, .kConnected), [], false, 6, 6) := by decide +kernel
  have hthread : ((Config.play successful grants (fun _ => True) (accepted 0)
      (start pending fun _ : Fin 1 => other)).map fun c =>
        (((c.thread 0).running.isNone, (c.thread 0).locals.receiving),
          (c.thread 0).locals.session.readOv_.readPos_,
          (c.thread 0).locals.session.readOv_.writePos_,
          (c.thread 0).locals.session.readOv_.wsaBuf_)) =
      some ((true, true), 0, 0, ⟨0, 65536⟩) := by decide +kernel
  obtain ⟨c, hc, hvals⟩ := Option.map_eq_some_iff.mp hplay
  rw [hc, Option.map_some, Option.some_inj] at hthread
  simp only [Prod.mk.injEq] at hvals hthread
  obtain ⟨⟨hreceive, hstate⟩, hout, hflag, hread, hwrite⟩ := hvals
  obtain ⟨⟨hnone, hreceiving⟩, hread', hwrite', hbuf⟩ := hthread
  obtain ⟨hreach, -⟩ := Config.Reach.play .refl trivial hc
  obtain ⟨chunk, hlong, hsize, hlen⟩ := exists_longChat
  have hidle : (c.thread 0).running = none := Option.isNone_iff_eq_none.mp hnone
  have hB := OverlappedEx.getSize_eq
  have hqueued : c.shared.session.Queued [] :=
    ⟨.nil (by omega) (by omega), by omega, Nat.zero_le _⟩
  have hc₀ : Config.Reach successful (fun _ => True) c c := .refl
  obtain ⟨c₁, hc₁, hidle₁, hout₁, hstate₁, hheard₁⟩ := reach_runs (.recv chunk) hc₀ hidle
    (fun chunk' h => ⟨hreceiving, by rw [← Op.recv.inj h, hbuf, hlen]; decide⟩)
    (P := fun s => s.outstanding = [0] ∧ s.state = .kConnected ∧ s.heard = c.shared.heard)
    (runs_recv (.nil (by omega) (by omega)) (by rw [hbuf, hwrite'])
      (by rw [hread', hlen, hB]; decide) hlong hsize hqueued hflag hout
      fun s' l' hout hstate' hheard => ⟨hout, hstate'.trans hstate, hheard⟩)
  obtain ⟨c', hc', -, hstate', hheard'⟩ := reach_runs (.sent 0 0) hc₁ hidle₁
    (fun chunk h => Op.noConfusion h)
    (P := fun s => s.state = .kDisconnecting ∧ s.heard = c₁.shared.heard)
    (runs_sent hout₁ hstate₁ fun s' hstate' hheard' => ⟨hstate', hheard'⟩)
  refine ⟨c, c', hreach, ?_, hstate, hc', hheard'.trans hheard₁, hstate'⟩
  rw [hreceive]
  exact Receive.noConfusion

end Isolation

end ServerStudy
