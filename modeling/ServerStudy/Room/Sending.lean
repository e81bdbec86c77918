import ServerStudy.Room.Steps

/-!
# ServerStudy.Room.Sending

What `SendPacket`, the kernel and `OnWrite` do to the queue of a session.

* `Kept.join` — a packet joins the queue of a session that it is still to be
  sent to;
* `Triple.send` — `SendPacket` as `Broadcast` calls it;
* `Triple.tell`, `Triple.onWrite` — the completion of a send.
-/

namespace ServerStudy

namespace Room

open SessionManager

variable {N : Nat} {m₀ : SessionManager N} {g : Ghost N} {s : Room N} {u v w : Fin N}
  {ov : OverlappedEx} {heard packet : List UInt8} {p : Progress N} {F R : Multiset (Token N)}
  {todo : List (Fin N)} {handle handle' : UInt64} {n : Nat}

/-! ## what is relayed -/

/-- A number in a field of eight bytes after the header. -/
theorem sessionHandle_append {header body : List UInt8} (hheader : header.length = 4)
    (handle : UInt64) :
    S2CChat.sessionHandle (header ++ (leBytes 8 handle.toNat ++ body)) = handle.toNat := by
  have hlt := handle.toNat_lt
  rw [S2CChat.sessionHandle, S2CChat.sessionHandleOff, List.drop_left' hheader,
    List.take_left' (length_leBytes 8 _), ofLeBytes_leBytes, Nat.mod_eq_of_lt (by omega)]

theorem sessionHandle_relayed : S2CChat.sessionHandle (relayed handle packet) = handle.toNat := by
  unfold relayed
  split_ifs
  · rw [S2CMove.bytes, List.append_assoc, List.append_assoc]
    exact sessionHandle_append (PacketHeader.length_bytes _) handle
  · exact Relay.sessionHandle_chat handle _

/-- What is relayed names its sender, and nobody else. -/
theorem isFrom_relayed : isFrom handle' (relayed handle packet) = decide (handle = handle') := by
  rw [isFrom, sessionHandle_relayed]
  exact decide_eq_decide.mpr UInt64.toNat_inj

/-- It is as long as its header says. -/
theorem size_relayed {h : UInt64} (h4 : 4 ≤ packet.length) (hproper : Proper packet) :
    4 ≤ (relayed h packet).length ∧
      packets.size (relayed h packet) = (relayed h packet).length := by
  unfold relayed
  split_ifs with hid
  · have hlen : C2SMove.sizeOf ≤ packet.length := by
      rcases hproper with hid' | hid'
      · exact hid'.2
      · exact absurd (hid.symm.trans hid'.1) (by decide)
    have h12 : 12 ≤ packet.length := hlen
    have hbytes : (S2CMove.bytes ⟨UInt16.ofNat S2CMove.sizeOf, S2CPacketId.kMove.toUInt16⟩ h
        ((packet.drop 4).take 4) ((packet.drop 8).take 4)).length = 20 := by
      simp only [S2CMove.bytes, List.length_append, PacketHeader.length_bytes, length_leBytes,
        List.length_take, List.length_drop]
      omega
    rw [hbytes, packets_size]
    simp only [S2CMove.bytes, List.append_assoc, PacketHeader.ofBytes_bytes_append]
    decide
  · have hlen : packet.length + 8 < 2 ^ 16 := by
      rcases hproper with hid' | hid'
      · exact absurd hid'.1 hid
      · exact hid'.2
    rw [Relay.size_chat, Relay.length_chat, List.length_drop]
    omega

/-! ## a queue grows -/

/-- One session less to send to. -/
def Progress.pass (p : Progress N) (v : Fin N) : Progress N :=
  { p with current := p.current.map fun c => (c.1, c.2.filter (· ≠ v)) }

theorem given_pass_ne (h : w ≠ v) : (p.pass v).given w = p.given w := by
  cases hc : p.current with
  | none => simp [Progress.pass, Progress.given, hc]
  | some c => simp [Progress.pass, Progress.given, hc, List.mem_filter, h]

theorem given_of_mem (hc : p.current = some (packet, todo)) (hv : v ∈ todo) :
    p.given v = p.handled := by
  simp [Progress.given, hc, hv]

theorem given_pass (hc : p.current = some (packet, todo)) :
    (p.pass v).given v = p.handled ++ [packet] := by
  simp [Progress.pass, Progress.given, hc, List.mem_filter]

theorem begun_pass : (p.pass v).begun = p.begun := by
  cases hc : p.current with
  | none => simp [Progress.pass, Progress.begun, hc]
  | some c => simp [Progress.pass, Progress.begun, hc]

/-- Nothing is new but the sending side of a session. -/
structure Touched (s s' : Room N) (v : Fin N) (x : Session) : Prop where
  manager : s'.manager = s.manager.setSession v x
  readOv : x.readOv_ = (s.manager.session v).readOv_
  handle : x.handle_ = (s.manager.session v).handle_
  managed : x.sessionManager_ = (s.manager.session v).sessionManager_
  receiving : s'.receiving = s.receiving
  heard : s'.heard = s.heard
  sending : ∀ w, w ≠ v → s'.sending w = s.sending w
  sent : ∀ w, w ≠ v → s'.sent w = s.sent w
  refused : ∀ w, s'.refused w = false → s.refused w = false

section Touched

variable {s' : Room N} {x : Session} (ht : Touched s s' v x)
include ht

theorem Touched.session (hw : w ≠ v) : s'.manager.session w = s.manager.session w := by
  rw [ht.manager, session_setSession_ne _ hw]

theorem Touched.readOv_ (w : Fin N) :
    (s'.manager.session w).readOv_ = (s.manager.session w).readOv_ := by
  by_cases hw : w = v
  · rw [hw, ht.manager, session_setSession, ht.readOv]
  · rw [ht.session hw]

theorem Touched.same (h : Same m₀ s.manager) : Same m₀ s'.manager :=
  ht.manager ▸ h.setSession ht.handle ht.managed

theorem Touched.reads (h : Reads m₀ p s F w) : Reads m₀ p s' F w :=
  h.congr (by rw [ht.receiving]) (by rw [ht.heard]) (ht.readOv_ w)

theorem Touched.fed {queue given : List (List UInt8)} (h : Fed m₀ s queue u w given) :
    Fed m₀ s' queue u w given :=
  h.congr (fun hs => by
    rw [ht.manager] at hs
    exact hs) (ht.refused w)

theorem Touched.listens (h : Listens s F w)
    (hreads : F.countP (·.reads w) = R.countP (·.reads w)) : Listens s' R w :=
  h.congr (fun hs => by
    rw [ht.manager] at hs
    exact hs) (by rw [ht.receiving]) hreads

theorem Touched.busy (hw : w ≠ v) (h : Busy s F w)
    (hwrites : F.countP (·.writes w) = R.countP (·.writes w)) : Busy s' R w :=
  h.congr (fun hs => by
    rw [ht.manager] at hs
    exact hs) (ht.refused w) (by rw [ht.session hw]) (ht.sending w hw) hwrites

theorem Touched.writes {queue : List (List UInt8)} {waiting : List UInt8} (hw : w ≠ v)
    (h : Writes m₀ queue waiting s F w) : Writes m₀ queue waiting s' F w :=
  h.congr (ht.sending w hw) (ht.sent w hw) (by rw [ht.session hw]) (by rw [ht.session hw])

end Touched

/-- The queue of `v` with one packet more of `u`. -/
theorem Fed.join {s' : Room N} {queue queue' given : List (List UInt8)}
    (h : Fed m₀ s' queue u v given)
    (hqueue : queue' = queue ++ [relayed (m₀.handleAt u) packet] ∨
      queue' = queue ∧ s'.refused v = true) :
    Fed m₀ s' queue' u v (given ++ [packet]) := by
  rcases hqueue with rfl | ⟨rfl, href⟩
  · have hfilter : (queue ++ [relayed (m₀.handleAt u) packet]).filter (isFrom (m₀.handleAt u)) =
        queue.filter (isFrom (m₀.handleAt u)) ++ [relayed (m₀.handleAt u) packet] := by
      simp [List.filter_append, isFrom_relayed]
    refine ⟨?_, fun hs hr => ?_⟩
    · rw [hfilter, List.map_append, List.map_singleton]
      exact h.sublist.append_right _
    · rw [hfilter, h.all hs hr, List.map_append, List.map_singleton]
  · refine ⟨?_, fun _ hr => ?_⟩
    · rw [List.map_append]
      exact h.sublist.trans (List.sublist_append_left _ _)
    · rw [href] at hr
      cases hr

/-- The packets of the others in it are the same. -/
theorem Fed.join_ne {s' : Room N} {queue queue' given : List (List UInt8)}
    (h : Fed m₀ s' queue w v given) (hne : m₀.handleAt u ≠ m₀.handleAt w)
    (hqueue : queue' = queue ++ [relayed (m₀.handleAt u) packet] ∨
      queue' = queue ∧ s'.refused v = true) : Fed m₀ s' queue' w v given := by
  rcases hqueue with rfl | ⟨rfl, -⟩
  · have hfilter : (queue ++ [relayed (m₀.handleAt u) packet]).filter (isFrom (m₀.handleAt w)) =
        queue.filter (isFrom (m₀.handleAt w)) := by
      simp [List.filter_append, isFrom_relayed, hne]
    exact ⟨hfilter.symm ▸ h.sublist, fun hs hr => hfilter.trans (h.all hs hr)⟩
  · exact h

/-- The packet that is being broadcast joins the queue of a session that it is still to be sent
to, or the session has refused it. -/
theorem Kept.join (hN : N < 2 ^ 32) (hk : Kept m₀ g s (.reader u ov heard p ::ₘ F))
    (hc : p.current = some (packet, todo)) (hv : v ∈ todo) (huv : u ≠ v) {s' : Room N}
    {x : Session} {queue : List (List UInt8)} {waiting : List UInt8} (ht : Touched s s' v x)
    (hqueue : queue = g.queue v ++ [relayed (m₀.handleAt u) packet] ∨
      queue = g.queue v ∧ s'.refused v = true)
    (hwrites : Writes m₀ queue waiting s' F v) (hbusy : Busy s' F v) :
    Kept m₀ ⟨Function.update g.queue v queue, Function.update g.progress u (p.pass v),
      Function.update g.waiting v waiting⟩ s' (.reader u ov heard (p.pass v) ::ₘ F) := by
  obtain ⟨hread, hheard, hp⟩ := hk.owned
  obtain ⟨hcount, hnone⟩ := (hk.reads u).alone (by simp)
  refine ⟨ht.same hk.same, fun w => ?_, fun w => ht.listens (hk.listens w) (countP_swap rfl),
    fun w => ?_, fun w z hwz => ?_, fun w => ?_⟩
  · have hr := ht.reads (hk.reads w)
    by_cases hw : w = u
    · subst hw
      rw [hp] at hr
      have hone : (Token.reader w ov heard (p.pass v) ::ₘ F).countP (·.reads w) = 1 := by
        rw [Multiset.countP_cons_of_pos (p := (·.reads w)) F (by simp), hcount]
      have hnone' : s'.receiving w = none := by rw [ht.receiving, hnone]
      refine ⟨?_, ?_, hr.connected, fun wsaBuf h => ?_, fun ov' heard' p' hmem => ?_⟩
      · rw [hone, hnone']
        decide
      · simpa [begun_pass] using hr.begun
      · rw [hnone'] at h
        cases h
      · rcases Multiset.mem_cons.mp hmem with he | hmem
        · cases he
          exact ⟨(ht.readOv_ w).trans hread, by rw [ht.heard, hheard], by simp⟩
        · exact absurd hmem (not_mem_of_reads hcount)
    · rw [Reads.cons_iff (by simpa using Ne.symm hw)] at hr ⊢
      simpa only [Function.update_of_ne hw] using hr
  · by_cases hw : w = v
    · subst hw
      exact hbusy.congr id id rfl rfl (countP_other rfl).symm
    · exact ht.busy hw (hk.busy w) (countP_swap rfl)
  · have hf := ht.fed (hk.fed w z hwz)
    by_cases hz : z = v
    · subst hz
      simp only [Function.update_self]
      by_cases hw : w = u
      · subst hw
        rw [hp, given_of_mem hc hv] at hf
        simpa only [Function.update_self, given_pass hc] using hf.join hqueue
      · simpa only [Function.update_of_ne hw] using
          hf.join_ne (fun he => hw (handleAt_inj hN m₀ he).symm) hqueue
    · simp only [Function.update_of_ne hz]
      by_cases hw : w = u
      · subst hw
        simpa only [Function.update_self, given_pass_ne hz, hp] using hf
      · simpa only [Function.update_of_ne hw] using hf
  · rw [Writes.cons_iff (by simp)]
    by_cases hw : w = v
    · subst hw
      simpa only [Function.update_self] using hwrites
    · simpa only [Function.update_of_ne hw] using
        ht.writes hw ((Writes.cons_iff (by simp)).mp (hk.writes w))

/-! ## the methods -/

section Methods

variable {execute : Nat → Prog (Room N × Unit) (Kernel N) Fault Bool}
  {queue : List (List UInt8)} {waiting : List UInt8}

/-- A session on its own is written back. -/
theorem Touched.own {x : Session} (hov : x.readOv_ = (s.manager.session v).readOv_)
    (hhandle : x.handle_ = (s.manager.session v).handle_)
    (hmanaged : x.sessionManager_ = (s.manager.session v).sessionManager_) :
    Touched s (s.setSession v x) v x :=
  ⟨rfl, hov, hhandle, hmanaged, rfl, rfl, fun _ _ => rfl, fun _ _ => rfl, fun _ hr => hr⟩

/-- A send is posted. -/
theorem Touched.posted {b : WsaBuf} :
    Touched s (s.postSend v b) v (s.manager.session v) where
  manager := by
    rw [SessionManager.setSession, Function.update_eq_self]
    rfl
  readOv := rfl
  handle := rfl
  managed := rfl
  receiving := rfl
  heard := rfl
  sending w hw := Function.update_of_ne hw _ _
  sent _ _ := rfl
  refused _ h := h

/-- A `SendPacket` returns false. -/
theorem Touched.refuse : Touched s (s.refuse v) v (s.manager.session v) where
  manager := by
    rw [SessionManager.setSession, Function.update_eq_self]
    rfl
  readOv := rfl
  handle := rfl
  managed := rfl
  receiving := rfl
  heard := rfl
  sending _ _ := rfl
  sent _ _ := rfl
  refused w h := by
    by_cases hw : w = v
    · rw [hw, refused_refuse] at h
      cases h
    · exact (Function.update_of_ne hw _ _).symm.trans h

/-- One change of the sending side after another. -/
theorem Touched.trans {s' s'' : Room N} {x y : Session} (h : Touched s s' v x)
    (h' : Touched s' s'' v y) : Touched s s'' v y where
  manager := by rw [h'.manager, h.manager, setSession_setSession]
  readOv := h'.readOv.trans (h.readOv_ v)
  handle := by
    rw [h'.handle, h.manager, session_setSession]
    exact h.handle
  managed := by
    rw [h'.managed, h.manager, session_setSession]
    exact h.managed
  receiving := h'.receiving.trans h.receiving
  heard := h'.heard.trans h.heard
  sending w hw := (h'.sending w hw).trans (h.sending w hw)
  sent w hw := (h'.sent w hw).trans (h.sent w hw)
  refused w hr := h.refused w (h'.refused w hr)

/-- `WSASend`. -/
theorem wp_wsaSend {bad : Fault → Prop} {wsaBuf : WsaBuf} {post : WsaResult → Room N × Unit → Prop}
    (h : ∀ r : WsaResult, post r (if r.posted then (s.postSend v wsaBuf, ()) else (s, ()))) :
    Prog.wp answers bad ((port N).wsaSend v wsaBuf) post (s, ()) := by
  refine fun r _ => ?_
  have hr := h r
  cases hposted : r.posted with
  | false =>
      rw [hposted] at hr
      simpa [hposted] using hr
  | true =>
      rw [hposted] at hr
      simpa [hposted, change, Prog.wp_bind] using hr

/-- The sending side of a session that was written back. -/
theorem Touched.write {s' : Room N} {x : Session} (ht : Touched s s' v x)
    (one : F.countP (·.writes v) + (s'.sending v).isSome.toNat ≤ x.isSending_.toNat)
    (queued : x.Queued waiting) (idle : x.isSending_ = false → waiting = [])
    (ioType : 1 ≤ F.countP (·.writes v) + (s'.sending v).isSome.toNat → x.writeOv_.ioType_ = .kSend)
    (sending : ∀ wsaBuf, s'.sending v = some wsaBuf →
      wsaBuf.buf = x.writeOv_.readPos_ ∧ wsaBuf.len ≤ waiting.length)
    (writer : ∀ n, Token.writer v n ∈ F → n ≤ waiting.length ∧
      s'.sent v ++ waiting.drop n = queue.flatten)
    (sent : F.countP (·.writes v) = 0 → s'.sent v ++ waiting = queue.flatten)
    (packet : ∀ packet ∈ queue, 4 ≤ packet.length ∧ packets.size packet = packet.length ∧
      ∃ u, u ≠ v ∧ isFrom (m₀.handleAt u) packet)
    (connected : (s'.sending v).isSome → m₀.state v = SessionState.kConnected.toNat) :
    Writes m₀ queue waiting s' F v := by
  have hx : s'.manager.session v = x := by rw [ht.manager, session_setSession]
  subst hx
  exact ⟨one, queued, idle, ioType, sending, writer, sent, packet, connected⟩

/-- `RegisterWriteInternal`, when nothing is outstanding. -/
theorem wp_registerWriteInternal (hv : m₀.state v = SessionState.kConnected.toNat)
    (hw : Writes m₀ queue waiting s F v)
    (hsending : (s.manager.session v).isSending_ = true)
    (hcount : F.countP (·.writes v) = 0) (hnone : s.sending v = none) :
    Prog.wp answers (fun _ => False) (Session.registerWriteInternal (sessionWith execute v))
      (fun b x => (∃ y, Touched s x.1 v y) ∧ Writes m₀ queue waiting x.1 F v ∧
        if b then (x.1.sending v).isSome = true
        else Writes m₀ queue waiting x.1 (.writer v 0 ::ₘ F) v) (s, ()) := by
  obtain ⟨hq, hbuf⟩ := hw.queued.prepareSend
  have ht := Touched.own (s := s) (v := v) (x := (s.manager.session v).prepareSend) rfl rfl rfl
  refine Session.wp_registerWriteInternal _ hsending ?_
  change Prog.wp _ _ (Prog.done ()) _ _
  rw [Prog.wp_done]
  refine wp_wsaSend fun r => ?_
  cases hr : r.posted with
  | false =>
      have hnone' : (s.setSession v (s.manager.session v).prepareSend).sending v = none := hnone
      have hsome {wsaBuf : WsaBuf} {P : Prop}
          (h : (s.setSession v (s.manager.session v).prepareSend).sending v = some wsaBuf) : P := by
        rw [hnone'] at h
        cases h
      have hone : (Token.writer v 0 ::ₘ F).countP (·.writes v) = 1 := by
        rw [Multiset.countP_cons_of_pos (p := (·.writes v)) F (by simp), hcount]
      have hflag : (s.manager.session v).prepareSend.isSending_ = true := hsending
      refine ⟨⟨_, ht⟩, ht.write hw.one hq hw.idle (fun _ => rfl) (fun _ => hsome) hw.writer hw.sent
        hw.packet hw.connected, ht.write ?_ hq hw.idle (fun _ => rfl) (fun _ => hsome) (fun n hn => ?_)
        (fun h => ?_) hw.packet hw.connected⟩
      · rw [hone, hnone', hflag]
        decide
      · rcases Multiset.mem_cons.mp hn with he | hn
        · cases he
          exact ⟨Nat.zero_le _, hw.sent hcount⟩
        · exact absurd hn (not_mem_of_writes hcount)
      · rw [hone] at h
        cases h
  | true =>
      have hself : ((sessionWith execute v).self.get ((sessionWith execute v).self.set
          ((sessionWith execute v).self.get (s, ())).prepareSend (s, ()))).writeOv_.wsaBuf_ =
          ⟨(s.manager.session v).writeOv_.readPos_, waiting.length⟩ := by
        rw [(sessionWith execute v).self.get_set]
        exact hbuf
      rw [if_pos rfl, hself]
      have hposted := ht.trans (Touched.posted (s := s.setSession v
        (s.manager.session v).prepareSend) (v := v)
        (b := ⟨(s.manager.session v).writeOv_.readPos_, waiting.length⟩))
      have hx : (s.setSession v (s.manager.session v).prepareSend).manager.session v =
          (s.manager.session v).prepareSend := session_setSession _ _ _
      rw [hx] at hposted
      refine ⟨⟨_, hposted⟩, hposted.write ?_ hq hw.idle (fun _ => rfl) (fun wsaBuf h => ?_)
        hw.writer hw.sent hw.packet fun _ => hv, congrArg Option.isSome (sending_postSend _ _ _)⟩
      · have hone : (s.manager.session v).prepareSend.isSending_ = true := hsending
        rw [hcount, sending_postSend, hone]
        exact le_rfl
      · rw [sending_postSend] at h
        cases h
        exact ⟨rfl, le_rfl⟩

/-- A packet at the end of a queue. -/
theorem flatten_concat {l : List UInt8} (h : l ++ waiting = queue.flatten) :
    l ++ (waiting ++ packet) = (queue ++ [packet]).flatten := by
  rw [List.flatten_append, List.flatten_singleton, ← h, List.append_assoc]

/-- `SendPacket`: refuse the packet, or let it join the queue. -/
theorem wp_sendPacket (hv : m₀.state v = SessionState.kConnected.toNat)
    (hw : Writes m₀ queue waiting s F v) (hbusy : Busy s F v) (h4 : 4 ≤ packet.length)
    (hsize : packets.size packet = packet.length)
    (hfrom : ∃ u, u ≠ v ∧ isFrom (m₀.handleAt u) packet) :
    Prog.wp answers (fun _ => False) (Session.sendPacket (sessionWith execute v) packet)
      (fun b x => b = false ∧ x = (s, ()) ∨ (b = true → Busy x.1 F v) ∧
        (∃ y, Touched s x.1 v y) ∧ ∃ waiting', Writes m₀ (queue ++ [packet]) waiting' x.1 F v) (s, ()) := by
  have hq := hw.queued
  refine Session.wp_sendPacket _ hq hsize.le (fun _ => .inl ⟨rfl, rfl⟩) fun hroom => ?_
  rw [List.take_of_length_le hsize.ge]
  have hjoined := hq.queue packet (hsize ▸ hroom)
  have hle : waiting.length ≤ (waiting ++ packet).length := by
    rw [List.length_append]
    omega
  have hwriter : ∀ n, Token.writer v n ∈ F → n ≤ (waiting ++ packet).length ∧
      s.sent v ++ (waiting ++ packet).drop n = (queue ++ [packet]).flatten := fun n hn => by
    obtain ⟨hn', hdrop⟩ := hw.writer n hn
    exact ⟨hn'.trans hle, by rw [List.drop_append_of_le_length hn', flatten_concat hdrop]⟩
  have hpacket : ∀ q ∈ queue ++ [packet], 4 ≤ q.length ∧ packets.size q = q.length ∧
      ∃ u, u ≠ v ∧ isFrom (m₀.handleAt u) q := fun q hmem => by
    rcases List.mem_append.mp hmem with hmem | hmem
    · exact hw.packet q hmem
    · rw [List.mem_singleton.mp hmem]
      exact ⟨h4, hsize, hfrom⟩
  cases hsending : (s.manager.session v).isSending_ with
  | true =>
      have ht := Touched.own (s := s) (v := v) (x := (s.manager.session v).queue packet)
        rfl rfl rfl
      rw [if_pos (show ((sessionWith execute v).self.get (s, ())).isSending_ = true from hsending)]
      have hflag : ((s.setSession v ((s.manager.session v).queue packet)).manager.session
          v).isSending_ = (s.manager.session v).isSending_ := by
        rw [manager_setSession, session_setSession]
        rfl
      refine .inr ⟨fun _ => hbusy.congr id id hflag rfl rfl, ⟨_, ht⟩, waiting ++ packet, ht.write hw.one hjoined (fun h => ?_) hw.ioType
        (fun wsaBuf h => ?_) hwriter (fun h => flatten_concat (hw.sent h)) hpacket
        hw.connected⟩
      · exact Bool.noConfusion (hsending.symm.trans h)
      · obtain ⟨hbuf, hlen⟩ := hw.sending wsaBuf h
        exact ⟨hbuf, hlen.trans hle⟩
  | false =>
      -- nothing is outstanding, so the operation is posted at once
      have hone := hw.one
      rw [hsending] at hone
      have hcount : F.countP (·.writes v) = 0 := Nat.eq_zero_of_add_eq_zero_right
        (Nat.le_zero.mp hone)
      have hnone : s.sending v = none := by
        cases hs : s.sending v with
        | none => rfl
        | some wsaBuf =>
            rw [hs] at hone
            exact absurd hone (by simp)
      rw [if_neg (show ¬ ((sessionWith execute v).self.get (s, ())).isSending_ = true by
        rw [show ((sessionWith execute v).self.get (s, ())).isSending_ = false from hsending]
        decide)]
      have ht := Touched.own (s := s) (v := v)
        (x := { (s.manager.session v).queue packet with isSending_ := true }) rfl rfl rfl
      have hw' : Writes m₀ (queue ++ [packet]) (waiting ++ packet) (s.setSession v
          { (s.manager.session v).queue packet with isSending_ := true }) F v := by
        refine ht.write ?_ (hjoined.withSending true) (fun h => Bool.noConfusion h) (fun h => ?_)
          (fun wsaBuf h => ?_) hwriter (fun h => flatten_concat (hw.sent h)) hpacket
          hw.connected
        · exact hone.trans (Nat.zero_le _)
        · rw [sending_setSession] at h
          exact absurd (h.trans hone) (by decide)
        · rw [sending_setSession, hnone] at h
          cases h
      have hset : (sessionWith execute v).self.set { (sessionWith execute v).self.get
          ((sessionWith execute v).self.set ((s.manager.session v).queue packet) (s, ())) with
          isSending_ := true } ((sessionWith execute v).self.set
            ((s.manager.session v).queue packet) (s, ())) =
          (s.setSession v { (s.manager.session v).queue packet with isSending_ := true }, ()) := by
        rw [(sessionWith execute v).self.get_set]
        exact congrArg (fun m => (({ s with manager := m } : Room N), ())) (setSession_setSession ..)
      rw [show ((sessionWith execute v).self.get (s, ())).queue packet =
        (s.manager.session v).queue packet from rfl, hset]
      refine Prog.wp_mono (fun b x hx => ?_) (wp_registerWriteInternal hv hw'
        (by rw [manager_setSession, session_setSession]) hcount hnone)
      obtain ⟨⟨y, hy⟩, hx', hb⟩ := hx
      refine .inr ⟨fun htrue _ _ _ => ?_, ⟨y, ht.trans hy⟩, _, hx'⟩
      rw [if_pos htrue] at hb
      rw [hb]
      exact Nat.le_add_left _ _

/-- `SendPacket` as `Broadcast` calls it. -/
theorem Triple.send (hN : N < 2 ^ 32) (hc : p.current = some (packet, todo)) (hv : v ∈ todo)
    (huv : u ≠ v) (hconnected : m₀.state v = SessionState.kConnected.toNat)
    (h4 : 4 ≤ packet.length) (hproper : Proper packet) :
    Triple m₀ {.reader u ov heard p} (send (relayed (m₀.handleAt u) packet) handle v)
      (fun _ r => r = {.reader u ov heard (p.pass v)}) := by
  refine Triple.atomically fun g s F _ hk => ?_
  rw [Multiset.singleton_add] at hk
  have hw := (Writes.cons_iff (by simp)).mp (hk.writes v)
  have hbusy : Busy s F v := (hk.busy v).congr id id rfl rfl (countP_other rfl)
  have hrefuse (s' : Room N) : Busy (s'.refuse v) F v := fun _ hr => by
    rw [refused_refuse] at hr
    cases hr
  obtain ⟨hlen, hsize⟩ := size_relayed (h := m₀.handleAt u) h4 hproper
  rw [Prog.bind_eq, Prog.wp_bind]
  refine Prog.wp_mono (fun b x hx => ?_) (wp_sendPacket hconnected hw hbusy hlen
    hsize ⟨u, huv, by simp [isFrom_relayed]⟩)
  rcases hx with ⟨rfl, rfl⟩ | ⟨hb, ⟨y, ht⟩, waiting, hw'⟩
  · have hj := hk.join hN hc hv huv Touched.refuse (.inr ⟨rfl, refused_refuse _ _⟩)
      (hw.congr rfl rfl rfl rfl) (hrefuse s)
    rw [← Multiset.singleton_add] at hj
    exact ⟨_, ⟨_, hj⟩, rfl⟩
  · cases b with
    | true =>
        have hj := hk.join hN hc hv huv ht (.inl rfl) hw' (hb rfl)
        rw [← Multiset.singleton_add] at hj
        exact ⟨_, ⟨_, hj⟩, rfl⟩
    | false =>
        have hj := hk.join hN hc hv huv (ht.trans Touched.refuse) (.inl rfl)
          (hw'.congr rfl rfl rfl rfl) (hrefuse _)
        rw [← Multiset.singleton_add] at hj
        exact ⟨_, ⟨_, hj⟩, rfl⟩

/-! ## the completion of a send -/

/-- The tokens differ in writers of one session only. -/
structure Alike (v : Fin N) (F R : Multiset (Token N)) : Prop where
  readers : ∀ u, F.countP (·.reads u) = R.countP (·.reads u)
  reader : ∀ u ov heard p, Token.reader u ov heard p ∈ R → .reader u ov heard p ∈ F
  writers : ∀ w, w ≠ v → F.countP (·.writes w) = R.countP (·.writes w)
  writer : ∀ w n, w ≠ v → Token.writer w n ∈ R → .writer w n ∈ F

theorem Alike.refl : Alike v F F :=
  ⟨fun _ => rfl, fun _ _ _ _ h => h, fun _ _ => rfl, fun _ _ _ h => h⟩

/-- A writer joins. -/
theorem Alike.join : Alike v F (.writer v n ::ₘ F) where
  readers _ := (countP_other rfl).symm
  reader _ _ _ _ h := (Multiset.mem_cons.mp h).resolve_left nofun
  writers w hw := (countP_other (by simpa using Ne.symm hw)).symm
  writer w k hw h := (Multiset.mem_cons.mp h).resolve_left fun he => hw (Token.writer.inj he).1

/-- Or leaves. -/
theorem Alike.leave : Alike v (.writer v n ::ₘ F) F where
  readers _ := countP_other rfl
  reader _ _ _ _ h := Multiset.mem_cons_of_mem h
  writers w hw := countP_other (by simpa using Ne.symm hw)
  writer _ _ _ h := Multiset.mem_cons_of_mem h

theorem Alike.trans {F' : Multiset (Token N)} (h : Alike v F R) (h' : Alike v R F') :
    Alike v F F' where
  readers u := (h.readers u).trans (h'.readers u)
  reader u ov heard p hmem := h.reader u ov heard p (h'.reader u ov heard p hmem)
  writers w hw := (h.writers w hw).trans (h'.writers w hw)
  writer w n hw hmem := h.writer w n hw (h'.writer w n hw hmem)

/-- The receiving sides do not see writers. -/
theorem Reads.alike (h : Reads m₀ p s F u) (ha : Alike v F R) : Reads m₀ p s R u where
  one := ha.readers u ▸ h.one
  begun := h.begun
  connected := h.connected
  awaits := h.awaits
  reader ov heard p' hmem := h.reader ov heard p' (ha.reader u ov heard p' hmem)

/-- The sending sides see their own. -/
theorem Writes.alike (h : Writes m₀ queue waiting s F w) (ha : Alike v F R) (hw : w ≠ v) :
    Writes m₀ queue waiting s R w where
  one := ha.writers w hw ▸ h.one
  queued := h.queued
  idle := h.idle
  ioType := ha.writers w hw ▸ h.ioType
  sending := h.sending
  writer n hmem := h.writer n (ha.writer w n hw hmem)
  sent := ha.writers w hw ▸ h.sent
  packet := h.packet
  connected := h.connected

/-- Only the sending side of a session is new. -/
theorem Touched.kept {s' : Room N} {x : Session} (ht : Touched s s' v x) (hk : Kept m₀ g s F)
    (ha : Alike v F R) (hw : Writes m₀ (g.queue v) waiting s' R v) (hbusy : Busy s' R v) :
    Kept m₀ { g with waiting := Function.update g.waiting v waiting } s' R where
  same := ht.same hk.same
  reads u := (ht.reads (hk.reads u)).alike ha
  listens u := ht.listens (hk.listens u) (ha.readers u)
  busy w := by
    by_cases hwv : w = v
    · subst hwv
      exact hbusy
    · exact ht.busy hwv (hk.busy w) (ha.writers w hwv)
  fed u w huw := ht.fed (hk.fed u w huw)
  writes w := by
    by_cases hwv : w = v
    · subst hwv
      simpa only [Function.update_self] using hw
    · simpa only [Function.update_of_ne hwv] using (ht.writes hwv (hk.writes w)).alike ha hwv

theorem Touched.tell : Touched s (s.tell v n) v (s.manager.session v) where
  manager := by
    rw [SessionManager.setSession, Function.update_eq_self]
    rfl
  readOv := rfl
  handle := rfl
  managed := rfl
  receiving := rfl
  heard := rfl
  sending w hw := Function.update_of_ne hw _ _
  sent w hw := Function.update_of_ne hw _ _
  refused _ h := h

/-- The bytes that are sent are those that wait in front. -/
theorem Writes.sent_tell (hw : Writes m₀ queue waiting s F v) {wsaBuf : WsaBuf}
    (hs : s.sending v = some wsaBuf) (hn : n ≤ wsaBuf.len) :
    n ≤ waiting.length ∧ (s.tell v n).sent v = s.sent v ++ waiting.take n := by
  obtain ⟨hbuf, hlen⟩ := hw.sending wsaBuf hs
  refine ⟨hn.trans hlen, ?_⟩
  have hslice := hw.queued.holds.slice
  rw [Room.tell]
  simp only [Function.update_self, hs, Option.getD_some]
  rw [Mirror.take_slice _ _ hn, hbuf, ← Mirror.take_slice _ _ (hn.trans hlen), hslice]

/-- The operation is not outstanding any more, and `OnWrite` is still to be called. -/
theorem Writes.tell (hw : Writes m₀ queue waiting s F v) {wsaBuf : WsaBuf}
    (hs : s.sending v = some wsaBuf) (hn : n ≤ wsaBuf.len) :
    Writes m₀ queue waiting (s.tell v n) (.writer v n ::ₘ F) v := by
  obtain ⟨hlen, hsent⟩ := hw.sent_tell hs hn
  have hone := hw.one
  rw [hs, Option.isSome_some, Bool.toNat_true] at hone
  have hflag := Bool.toNat_le (s.manager.session v).isSending_
  have hcount : F.countP (·.writes v) = 0 := by omega
  have hcount' : (Token.writer v n ::ₘ F).countP (·.writes v) = 1 := by
    rw [Multiset.countP_cons_of_pos (p := (·.writes v)) F (by simp), hcount]
  have hnone : (s.tell v n).sending v = none := Function.update_self _ _ _
  refine ⟨?_, hw.queued, hw.idle, fun _ => hw.ioType (by rw [hs]; simp), fun wsaBuf h => ?_,
    fun k hk => ?_, fun h => ?_, hw.packet, fun h => ?_⟩
  · rw [hcount', hnone]
    exact (Nat.le_add_left _ _).trans hone
  · rw [hnone] at h
    cases h
  · rcases Multiset.mem_cons.mp hk with he | hk
    · cases he
      rw [hsent, List.append_assoc, List.take_append_drop]
      exact ⟨hlen, hw.sent hcount⟩
    · exact absurd hk (not_mem_of_writes hcount)
  · rw [hcount'] at h
    exact absurd h Nat.one_ne_zero
  · rw [hnone] at h
    exact absurd h Bool.false_ne_true

/-- No bytes were sent, and no `OnWrite` is made, where the session is being disconnected. -/
theorem Kept.stop_writer (hk : Kept m₀ g s (.writer v 0 ::ₘ F))
    (hclosed : s.manager.state v ≠ SessionState.kConnected.toNat) : Kept m₀ g s F where
  same := hk.same
  reads u := (Reads.cons_iff (by simp)).mp (hk.reads u)
  listens u := (hk.listens u).congr id rfl (countP_other rfl)
  busy w := by
    by_cases hw : w = v
    · exact fun hs => absurd hs (hw ▸ hclosed)
    · exact (hk.busy w).congr id id rfl rfl (countP_other (by simpa using Ne.symm hw))
  fed := hk.fed
  writes w := by
    have hw := hk.writes w
    by_cases hwv : v = w
    · subst hwv
      have hle := Multiset.countP_le_of_le (·.writes v) (Multiset.le_cons_self F (.writer v 0))
      refine ⟨?_, hw.queued, hw.idle, fun h => hw.ioType (h.trans (Nat.add_le_add_right hle _)),
        hw.sending, fun n hn => hw.writer n (Multiset.mem_cons_of_mem hn), fun _ => ?_, hw.packet,
        hw.connected⟩
      · exact (Nat.add_le_add_right hle _).trans hw.one
      · exact (hw.writer 0 (Multiset.mem_cons_self _ _)).2
    · exact (Writes.cons_iff (by simpa using hwv)).mp hw

/-- A completion of a send is dequeued. -/
theorem Triple.tell :
    Triple m₀ 0 (dequeue (.sent v)) (fun n r =>
      m₀.state v = SessionState.kConnected.toNat ∧ r = {.writer v (n.getD 0)}) := by
  refine Triple.atomically fun g s F _ hk n hn => ?_
  rw [zero_add] at hk
  obtain ⟨wsaBuf, hs, hle⟩ := hn
  have hv := (hk.writes v).connected (by rw [hs]; rfl)
  have htold := Touched.tell.kept hk .join ((hk.writes v).tell hs hle) fun _ _ _ => by
    rw [Multiset.countP_cons_of_pos (p := (·.writes v)) F (by simp)]
    omega
  rw [← Multiset.singleton_add] at htold
  exact ⟨_, ⟨_, htold⟩, hv, rfl⟩

/-- `OnWrite`. -/
theorem Triple.onWrite (hv : m₀.state v = SessionState.kConnected.toNat) :
    Triple m₀ {.writer v n} (Session.onWrite (sessionWith execute v) n)
      (fun b r => b = true ∧ r = 0 ∨ b = false ∧ r = {.writer v 0}) := by
  refine Triple.locked rfl fun g s F _ hk => ?_
  rw [Multiset.singleton_add] at hk
  have hw := hk.writes v
  have hone := hw.one
  rw [Multiset.countP_cons_of_pos (p := (·.writes v)) F (by simp)] at hone
  have hle := Bool.toNat_le (s.manager.session v).isSending_
  have hcount : F.countP (·.writes v) = 0 := by omega
  have hsending : (s.manager.session v).isSending_ = true := by
    cases hf : (s.manager.session v).isSending_ with
    | true => rfl
    | false =>
        rw [hf, Bool.toNat_false] at hone
        omega
  have hnone : s.sending v = none := by
    cases hs : s.sending v with
    | none => rfl
    | some wsaBuf =>
        rw [hs, Option.isSome_some, Bool.toNat_true] at hone
        omega
  obtain ⟨hn, htotal⟩ := hw.writer n (Multiset.mem_cons_self _ _)
  have hq := hw.queued.sentOff hn
  refine Session.wp_onWrite _ hw.queued hsending hn rfl (fun hall => ?_) fun hmore => ?_
  · have hdone := Touched.own (s := s) (v := v)
      (x := { (s.manager.session v).sentOff n with isSending_ := false }) rfl rfl rfl
    have hempty : (g.waiting v).drop n = [] := by rw [hall, List.drop_length]
    have hw' : Writes m₀ (g.queue v) ((g.waiting v).drop n) (s.setSession v
        { (s.manager.session v).sentOff n with isSending_ := false }) F v :=
      hdone.write (by rw [hcount, sending_setSession, hnone]; exact le_rfl) (hq.withSending false)
        (fun _ => hempty) (fun h => by
          rw [hcount, sending_setSession, hnone] at h
          exact absurd h (by decide))
        (fun wsaBuf h => by
          rw [sending_setSession, hnone] at h
          cases h)
        (fun k hk => absurd hk (not_mem_of_writes hcount)) (fun _ => htotal) hw.packet hw.connected
    have hset : (sessionWith execute v).self.set { (sessionWith execute v).self.get
        ((sessionWith execute v).self.set ((s.manager.session v).sentOff n) (s, ())) with
        isSending_ := false } ((sessionWith execute v).self.set
          ((s.manager.session v).sentOff n) (s, ())) =
        (s.setSession v { (s.manager.session v).sentOff n with isSending_ := false }, ()) := by
      rw [(sessionWith execute v).self.get_set]
      exact congrArg (fun m => (({ s with manager := m } : Room N), ())) (setSession_setSession ..)
    have hkept := hdone.kept hk .leave hw' fun _ _ hf => by
      rw [manager_setSession, session_setSession] at hf
      cases hf
    rw [← zero_add F] at hkept
    rw [show ((sessionWith execute v).self.get (s, ())).sentOff n =
      (s.manager.session v).sentOff n from rfl, hset]
    exact ⟨0, ⟨_, hkept⟩, .inl ⟨rfl, rfl⟩⟩
  · have ht := Touched.own (s := s) (v := v) (x := (s.manager.session v).sentOff n) rfl rfl rfl
    have hw' : Writes m₀ (g.queue v) ((g.waiting v).drop n)
        (s.setSession v ((s.manager.session v).sentOff n)) F v :=
      ht.write (by rw [hcount, sending_setSession, hnone]; exact Nat.zero_le _) hq
        (fun h => Bool.noConfusion (hsending.symm.trans h)) (fun h => by
          rw [hcount, sending_setSession, hnone] at h
          exact absurd h (by decide))
        (fun wsaBuf h => by
          rw [sending_setSession, hnone] at h
          cases h)
        (fun k hk => absurd hk (not_mem_of_writes hcount)) (fun _ => htotal) hw.packet hw.connected
    have hflag : ((s.setSession v ((s.manager.session v).sentOff n)).manager.session v).isSending_ =
        true := by
      rw [manager_setSession, session_setSession]
      exact hsending
    refine Prog.wp_mono (fun b x hx => ?_) (wp_registerWriteInternal hv hw' hflag hcount hnone)
    obtain ⟨⟨y, hy⟩, hx', hb⟩ := hx
    cases b with
    | true =>
        have hkept := (ht.trans hy).kept hk .leave hx' fun _ _ _ => by
          rw [show (_ : Option WsaBuf).isSome = true from hb]
          exact Nat.le_add_left _ _
        rw [← zero_add F] at hkept
        exact ⟨0, ⟨_, hkept⟩, .inl ⟨rfl, rfl⟩⟩
    | false =>
        have hkept := (ht.trans hy).kept hk (.trans .leave .join) hb fun _ _ _ => by
          rw [Multiset.countP_cons_of_pos (p := (·.writes v)) F (by simp)]
          omega
        rw [← Multiset.singleton_add] at hkept
        exact ⟨_, ⟨_, hkept⟩, .inr ⟨rfl, rfl⟩⟩

end Methods

end Room

end ServerStudy
