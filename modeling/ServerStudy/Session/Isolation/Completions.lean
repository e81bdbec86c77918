import ServerStudy.Session.Isolation

/-!
# ServerStudy.Session.Isolation.Completions

The completions of the session, and what is sent to it.

* `safely_send` — a harmless `SendPacket` is sent, or waits for what is outstanding;
* `safely_onWrite`, `safely_onRead`, `safely_connect` — what `Dispatch` calls;
* `leaves_accept`, `leaves_sent`, `leaves_heard` — `Dispatch` of each completion, and the
  dequeuing that puts a thread in charge of it.
-/

namespace ServerStudy

namespace Isolation

variable {α β : Type} {s s' : Neighbour} {R F r : Multiset Duty} {w : List UInt8} {reg : Other}
  {d : Duty}

/-! ## what sends -/

theorem wp_wsaSend {bad : Fault → Prop} {relayed : Bool} {wsaBuf : WsaBuf}
    {post : WsaResult → Neighbour × Other → Prop} :
    Prog.wp successful bad (wsaSend relayed wsaBuf) post (s, reg) ↔
      ∀ result : WsaResult, (relayed = false → result.posted = true) →
        post result (if result.posted then
          ({ s with outstanding := s.outstanding ++ [wsaBuf.len] }, reg) else (s, reg)) := by
  simp only [wsaSend, Prog.bind_eq, Prog.wp_bind, Prog.wp_query]
  refine forall₂_congr fun result _ => ?_
  cases result.posted with
  | true => exact Iff.rfl
  | false => exact Iff.rfl

theorem sends_of_due {due' : Multiset Nat} (hdue : due s R = due')
    (h : Session.Outgoing (fun n => 0 < n) True s.session due' w) : Sends s R w := by
  subst hdue
  exact h

/-- Posting all that waits: it succeeds, or it was for a `Broadcast`. -/
theorem wp_registerWriteInternal {bad : Fault → Prop} {relayed : Bool}
    {post : Bool → Neighbour × Other → Prop} (hqueued : s.session.Queued w)
    (hsending : s.session.isSending_ = true) (hdue : due s R = 0) (hpos : 0 < w.length)
    (hpost : ∀ y n, Sends { s with session := y, outstanding := s.outstanding ++ [n] } R w →
      y.readOv_ = s.session.readOv_ →
      post true ({ s with session := y, outstanding := s.outstanding ++ [n] }, reg))
    (hfail : ∀ y, relayed = true → Sends { s with session := y } R w →
      y.readOv_ = s.session.readOv_ → post false ({ s with session := y }, reg)) :
    Prog.wp successful bad (Session.registerWriteInternal (port relayed)) post (s, reg) := by
  refine Session.wp_registerWriteInternal_apart (port_apart relayed) hsending ?_
  refine wp_wsaSend.mpr fun result hresult => ?_
  cases hposted : result.posted with
  | true =>
      refine hpost _ _ ?_ rfl
      have hone : due { s with outstanding := s.outstanding ++
          [s.session.prepareSend.writeOv_.wsaBuf_.len] } R =
          {s.session.prepareSend.writeOv_.wsaBuf_.len} + due s R := by
        rw [due, due, ← Multiset.coe_add, Multiset.coe_singleton, add_right_comm, add_comm]
      rw [hdue, add_zero] at hone
      exact sends_of_due hone (.posted hqueued hsending hpos)
  | false =>
      refine hfail _ ?_ ?_ rfl
      · by_contra hrelayed
        have hok := hresult (Bool.eq_false_iff.mpr hrelayed)
        rw [hposted] at hok
        exact Bool.noConfusion hok
      · have hnone : due { s with session := s.session.prepareSend } R = 0 := hdue
        exact sends_of_due hnone (.refused hqueued hsending trivial)

/-- A `SendPacket` on the session: if harmless, it keeps everything sane; and the welcome packet
is sent. -/
theorem safely_send {cause : Option PacketHeader} {packet : List UInt8}
    (hobj : packets.size packet ≤ packet.length)
    (hzero : ∀ header, cause = some header → packets.size packet = 0 → LongChat header)
    (hwelcome : cause = none → 0 < packets.size packet)
    {post : Bool → Other → Multiset Duty → Prop} (htrue : post true reg r)
    (hfalse : cause ≠ none → post false reg r) : Safely (send cause packet) post reg r := by
  refine Safe.atomically trivial fun s F _ hi => ?_
  obtain ⟨⟨w, hw⟩, hr⟩ := hi
  have hw₁ : Sends (s.note cause packet) (r + F) w := hw
  have hkept : ∀ s' : Neighbour, s'.accepting = s.accepting → s'.state = s.state →
      s'.receive = s.receive → s'.session.readOv_ = s.session.readOv_ → Receives s' (r + F) :=
    fun s' ha hs hrec hov => hr.congr ha hs hrec hov
  have hharmless : ∀ s₂ : Neighbour, s₂.requests = (s.note cause packet).requests → Sheltered s₂ →
      (⟨cause, packets.size packet, s.session.isSending_, w.length⟩ : Request).Harmless := by
    intro s₂ hrequests hsheltered
    rw [← hw.queued.available]
    exact hsheltered.harmless _ (hrequests ▸ List.mem_cons_self)
  rw [Prog.wp_atomically, Prog.bind_eq, Prog.wp_bind, Prog.wp_modify]
  refine Session.wp_sendPacket (port cause.isSome) hw₁.queued hobj (fun hfull hg => ?_)
    fun hroom => ?_
  · refine ⟨.same rfl rfl rfl, r, ⟨⟨w, hw₁⟩, hkept _ rfl rfl rfl rfl⟩, trivial,
      hfalse fun hnone => ?_⟩
    have hfits := hharmless _ rfl hg
    rw [hnone] at hfits
    simp only [Request.Harmless] at hfits
    omega
  have hlen : (packet.take (packets.size packet)).length = packets.size packet :=
    List.length_take_of_le hobj
  change if s.session.isSending_ = true then _ else _
  cases hsending : s.session.isSending_ with
  | true =>
      exact fun _ => ⟨.same rfl rfl rfl, r, ⟨⟨_, hw₁.queue hsending (by omega)⟩,
        hkept _ rfl rfl rfl rfl⟩, trivial, htrue⟩
  | false =>
      obtain ⟨hempty, hdue⟩ := hw₁.idle hsending
      have hqueued :=
        (hw₁.queued.queue (packet.take (packets.size packet)) (by omega)).withSending true
      -- with nothing to send, the request is a long chat for an idle session
      by_cases hpos : 0 < packets.size packet
      · refine wp_registerWriteInternal hqueued rfl hdue (by rw [List.length_append]; omega)
          (fun y n hs hov _ => ?_) fun y hrelayed hs hov _ => ?_
        · exact ⟨.same rfl rfl rfl, r, ⟨⟨_, hs⟩, hkept _ rfl rfl rfl hov⟩, trivial, htrue⟩
        · exact ⟨.same rfl rfl rfl, r, ⟨⟨_, hs⟩, hkept _ rfl rfl rfl hov⟩, trivial,
            hfalse (Option.isSome_iff_ne_none.mp hrelayed)⟩
      · refine Session.wp_registerWriteInternal_apart (port_apart _) rfl ?_
        have hlong : ∀ s₂ : Neighbour, s₂.requests = (s.note cause packet).requests →
            ¬ Sheltered s₂ := by
          intro s₂ hrequests hsheltered
          have hrequest := hharmless s₂ hrequests hsheltered
          cases cause with
          | none => exact hpos (hwelcome rfl)
          | some header =>
              have hsent := hrequest (hzero header rfl (by omega))
              exact Bool.noConfusion (hsending.symm.trans hsent)
        refine wp_wsaSend.mpr fun result _ => ?_
        cases hposted : result.posted with
        | true => exact fun hg => absurd hg (hlong _ rfl)
        | false => exact fun hg => absurd hg (hlong _ rfl)

/-- `OnWrite` deals with a completion. -/
theorem safely_onWrite {n : Nat} {post : Bool → Other → Multiset Duty → Prop}
    (hpost : post true reg 0) :
    Safely (Session.onWrite (port false) n) post reg {.completion n} := by
  refine Safe.atomically trivial fun s F _ hi => ?_
  obtain ⟨⟨w, hw⟩, hr⟩ := hi
  rw [receives_completion] at hr
  have hone := hw
  rw [Sends, due_add, completions_completion, Multiset.singleton_add] at hone
  obtain ⟨hsending, -, hn, hdue⟩ := hone.of_cons
  have hq := hw.queued.sentOff hn
  have hkept : ∀ s' : Neighbour, s'.accepting = s.accepting → s'.state = s.state →
      s'.receive = s.receive → s'.session.readOv_ = s.session.readOv_ → Receives s' (0 + F) :=
    fun s' ha hs hrec hov => by
      rw [zero_add]
      exact hr.congr ha hs hrec hov
  rw [← zero_add F] at hdue
  refine Session.wp_onWrite (port false) (s := (s, reg)) hw.queued hsending hn rfl (fun hall => ?_)
    fun hmore => ?_
  · have hempty : w.drop n = [] := by rw [hall, List.drop_length]
    rw [hempty] at hq
    have hidle : Sends { s with session := { s.session.sentOff n with isSending_ := false } }
        (0 + F) [] := by
      have hnone : due { s with session := { s.session.sentOff n with isSending_ := false } }
        (0 + F) = 0 := hdue
      exact sends_of_due hnone (.none (hq.withSending false) rfl)
    exact fun _ => ⟨.same rfl rfl rfl, 0, ⟨⟨[], hidle⟩, hkept _ rfl rfl rfl rfl⟩, trivial, hpost⟩
  · refine wp_registerWriteInternal (s := { s with session := s.session.sentOff n }) (R := 0 + F)
      hq hsending hdue (by rw [List.length_drop]; omega) (fun y m hs hov _ => ?_)
      fun _ h => Bool.noConfusion h
    exact ⟨.same rfl rfl rfl, 0, ⟨⟨_, hs⟩, hkept _ rfl rfl rfl hov⟩, trivial, hpost⟩

/-! ## connecting and receiving -/

/-- A session that is not connected stays so, and so does one whose bytes are handled. -/
theorem safely_disconnectLocked (hd : d = .accept ∨ ∃ ov, d = .reading true ov)
    {post : Option Bool → Other → Multiset Duty → Prop} (hpost : ∀ a, post a reg 0) :
    Safely (Session.disconnectLocked (port false)) post reg {d} := by
  refine Safe.atomically trivial fun s F _ hi =>
    (Session.wp_disconnectLocked (port_apart false)).mpr ?_
  obtain ⟨⟨w, hw⟩, hr⟩ := hi
  have hopens : d.opens = true := by rcases hd with rfl | ⟨ov, rfl⟩ <;> rfl
  have hmem : d ∈ ({d} + F : Multiset Duty) := mem_singleton_add.mpr (.inl rfl)
  obtain ⟨haccepting, hposted, hF⟩ := hr.alone hopens
  have hfree : s.receive ≠ .handling → s.state ≠ .kConnected := by
    rcases hd with rfl | ⟨ov, rfl⟩
    · exact fun _ => (hr.fresh (.inr hmem)).2.2
    · exact fun hne => absurd ((hr.reading true ov hmem).2 rfl) hne
  rw [Sends, due_opens _ _ hopens, ← zero_add F] at hw
  have hnone : ∀ state, Receives { s with state } (0 + F) := fun state =>
    receives_none hF (fun h => Bool.noConfusion (haccepting.symm.trans h))
      (fun h => Bool.noConfusion (haccepting.symm.trans h)) fun h => absurd h hposted
  split_ifs with hstate
  · have hchange : Keeps s { s with state := .kDisconnecting } :=
      ⟨le_rfl, fun _ h => h, fun hne hconn => absurd hconn (hfree hne)⟩
    have hsane : Sane { s with state := .kDisconnecting } (0 + F) := ⟨⟨w, hw⟩, hnone _⟩
    exact fun _ => ⟨hchange, 0, hsane, trivial, hpost _⟩
  · have hsane : Sane s (0 + F) := ⟨⟨w, hw⟩, hnone s.state⟩
    exact fun _ => ⟨.same rfl rfl rfl, 0, hsane, trivial, hpost _⟩

theorem safely_disconnect (hd : d = .accept ∨ ∃ ov, d = .reading true ov)
    {post : Bool → Other → Multiset Duty → Prop} (hpost : ∀ a, post a reg 0) :
    Safely (Session.disconnect (port false)) post reg {d} := by
  refine Safe.bind (safely_disconnectLocked hd fun a => ?_)
  cases a with
  | some result => exact ⟨trivial, hpost _⟩
  | none =>
      refine Safe.bind (safely_modify (fun _ => rfl) (fun _ => rfl) (fun _ => rfl) ?_)
      refine Safe.bind (safely_read fun handle => Safe.bind ⟨trivial, ?_⟩)
      refine Safe.bind (safely_query fun s x _ => ?_)
      obtain ⟨result, errorCode⟩ := x
      dsimp only
      split_ifs
      · exact ⟨trivial, hpost _⟩
      · exact ⟨trivial, hpost _⟩
      · exact ⟨trivial, hpost _⟩

/-- The receive is posted, and its completion will be somebody else's. -/
theorem safely_wsaRecv {heard : Bool} {ov : OverlappedEx} {rest : List UInt8} (h : ov.Awaits rest) :
    Safely (wsaRecv ov.wsaBuf_) (fun result reg' r' =>
      if result.posted then reg' = reg ∧ r' = 0
      else False ∧ reg' = reg ∧ r' = {.reading heard ov}) reg {.reading heard ov} := by
  refine Safe.bind (safely_query fun _ result hresult => ?_)
  have hposted : result.posted = true := hresult
  simp only [hposted, if_true]
  refine ⟨trivial, fun s F _ hi _ => ?_⟩
  obtain ⟨⟨w, hw⟩, hr⟩ := hi
  obtain ⟨haccepting, -, hF⟩ := hr.alone rfl
  have hov := (hr.reading heard ov (mem_singleton_add.mpr (.inl rfl))).1
  rw [Sends, due_opens _ _ rfl, ← zero_add F] at hw
  have hnone : Receives { s with receive := .posted } (0 + F) :=
    receives_none hF (fun h => Bool.noConfusion (haccepting.symm.trans h))
      (fun h => Bool.noConfusion (haccepting.symm.trans h)) fun _ => ⟨rest, hov ▸ h⟩
  have hsane : Sane { s with receive := .posted } (0 + F) := ⟨⟨w, hw⟩, hnone⟩
  have hpost : if result.posted = true then reg = reg ∧ (0 : Multiset Duty) = 0
      else False ∧ reg = reg ∧ (0 : Multiset Duty) = {.reading heard ov} := by
    rw [if_pos hposted]
    exact ⟨rfl, rfl⟩
  exact ⟨⟨le_rfl, fun _ _ => Receive.noConfusion, fun _ h => h⟩, 0, hsane, trivial, hpost⟩

/-- Connecting succeeds, and the thread has the receiving side; or the session is being
disconnected already. -/
theorem safely_connectLocked {post : Bool → Other → Multiset Duty → Prop}
    (htrue : ∀ ov, ov.Waits [] → ov.readPos_ < OverlappedEx.getSize →
      post true reg {.reading false ov}) (hfalse : post false reg {.accept}) :
    Safely (Session.connectLocked (port false)) post reg {.accept} := by
  refine Safe.atomically trivial fun s F _ hi =>
    (Session.wp_connectLocked (port_apart false)).mpr ?_
  split_ifs with hstate
  · obtain ⟨⟨w, hw⟩, hr⟩ := hi
    obtain ⟨haccepting, hposted, hF⟩ := hr.alone rfl
    obtain ⟨hread, hwrite, -⟩ := hr.fresh (.inr (mem_singleton_add.mpr (.inl rfl)))
    have hB := OverlappedEx.getSize_eq
    have hwaits : s.session.readOv_.Waits [] :=
      ⟨.nil (hwrite.trans hread.symm) (by omega), Nat.zero_le _, by rw [hread]; decide⟩
    rw [Sends, due_opens _ _ rfl] at hw
    have hsane : Sane { s with state := .kConnected } ({.reading false s.session.readOv_} + F) := by
      refine ⟨⟨w, ?_⟩, receives_singleton hF haccepting hposted (fun h => Duty.noConfusion h) ?_⟩
      · rw [Sends, due_opens _ _ rfl]
        exact hw
      · intro heard ov he
        cases he
        exact ⟨rfl, fun h => Bool.noConfusion h⟩
    exact fun _ => ⟨⟨le_rfl, fun _ h => h, fun _ _ => rfl⟩,
      {Duty.reading false s.session.readOv_}, hsane, trivial, htrue _ hwaits (by omega)⟩
  · exact fun _ => ⟨.same rfl rfl rfl, {.accept}, hi, trivial, hfalse⟩

theorem safely_connect {post : Bool → Other → Multiset Duty → Prop}
    (htrue : post true reg 0) (hfalse : post false reg {.accept}) :
    Safely (Session.connectBy (port false) (send none)) post reg {.accept} := by
  refine Safe.bind (safely_connectLocked (fun ov hwaits hlow => ?_) ⟨trivial, hfalse⟩)
  refine Safe.bind (safely_read fun handle => ?_)
  have hsize := Session.size_welcomePacket handle
  refine Safe.bind (safely_send (Session.size_le_welcomePacket handle)
    (fun header h => absurd h.symm (Option.some_ne_none header)) (fun _ => by omega) ?_
    fun h => absurd rfl h)
  have hrecv : ∀ {ov : OverlappedEx} {rest : List UInt8} {reg' : Other} {r' : Multiset Duty},
      (reg' = reg ∧ r' = {.reading false ov}) → ov.Awaits rest →
      Safely ((port false).wsaRecv ov.wsaBuf_) (fun result reg'' r'' =>
        if result.posted then reg'' = reg ∧ r'' = 0
        else False ∧ reg'' = reg ∧ r'' = {.reading false ov}) reg' r' := by
    rintro ov rest reg' r' ⟨rfl, rfl⟩ h
    exact safely_wsaRecv h
  refine ((reader_self false reg).safe_registerRead (fun _ _ => rfl) (fun _ => rfl) hrecv ⟨rfl, rfl⟩
    hwaits hlow).then fun posted reg' r' hposted => ?_
  cases posted with
  | false => exact absurd (hposted.1.resolve_right id) (by decide)
  | true =>
      obtain ⟨rfl, rfl⟩ := hposted
      exact ⟨trivial, htrue⟩

/-- `OnRead` of bytes that the session itself has sent. -/
theorem safely_onRead {n : Nat} {ov : OverlappedEx} {rest : List UInt8}
    (h : (ov.produce n).Waits rest) {post : Bool → Other → Multiset Duty → Prop}
    (htrue : post true reg 0) (hfalse : ∀ ov', post false reg {.reading true ov'}) :
    Safely (Session.onRead (port false) n) post reg {.reading true ov} := by
  have hrecv : ∀ {ov : OverlappedEx} {rest : List UInt8} {reg' : Other} {r' : Multiset Duty},
      (reg' = reg ∧ r' = {.reading true ov}) → ov.Awaits rest →
      Safely ((port false).wsaRecv ov.wsaBuf_) (fun result reg'' r'' =>
        if result.posted then reg'' = reg ∧ r'' = 0
        else False ∧ reg'' = reg ∧ r'' = {.reading true ov}) reg' r' := by
    rintro ov rest reg' r' ⟨rfl, rfl⟩ h
    exact safely_wsaRecv h
  refine Safe.mono (fun _ h => h) (fun b reg' r' hb => ?_)
    ((reader_self true reg).safe_onRead (fun _ _ => rfl) (fun _ => rfl) hrecv
      (fun {ov rest reg' r'} hI _ _ _ => ?_) ⟨rfl, rfl⟩ h)
  · cases b with
    | false =>
        obtain ⟨ov', rfl, rfl⟩ := hb
        exact hfalse ov'
    | true =>
        obtain ⟨rfl, rfl⟩ := hb
        exact htrue
  · exact safely_query fun _ _ _ => hI

/-! ## the session's completions -/

/-- Threads end in charge of nothing. -/
abbrev Leaves (p : Prog (Neighbour × Other) Calls Fault Unit) (r : Multiset Duty) : Prop :=
  ∀ reg, reg.Ready → Safely p (fun _ reg' r' => reg'.Ready ∧ r' = 0) reg r

theorem leaves_disconnect (hd : d = .accept ∨ ∃ ov, d = .reading true ov) :
    Leaves ((Session.disconnect (port false)).bind fun _ => .done ()) {d} := fun _ hready =>
  Safe.bind (safely_disconnect hd fun _ => ⟨trivial, hready, rfl⟩)

theorem leaves_accept : Leaves (dispatch .kAccept 0) {.accept} := by
  intro reg hready
  refine Safe.bind (Safe.bind ⟨trivial, Safe.bind (safely_query fun _ result hresult => ?_)⟩)
  rw [if_neg hresult]
  refine Safe.bind ⟨trivial, Safe.bind (safely_query fun _ result hresult => ?_)⟩
  rw [if_neg hresult]
  refine Safe.bind ⟨trivial, Safe.bind (safely_connect ?_ ?_)⟩
  · exact ⟨trivial, trivial, hready, rfl⟩
  · exact ⟨trivial, leaves_disconnect (.inl rfl) reg hready⟩

theorem leaves_sent {n : Nat} (hn : 0 < n) : Leaves (dispatch .kSend n) {.completion n} := by
  intro reg hready
  simp only [dispatch, IocpCore.dispatchBy]
  rw [if_neg (by omega)]
  exact Safe.bind ⟨trivial, Safe.bind (safely_onWrite ⟨trivial, hready, rfl⟩)⟩

theorem leaves_heard {n : Nat} {ov : OverlappedEx} {rest : List UInt8}
    (h : (ov.produce n).Waits rest) : Leaves (dispatch .kRecv n) {.reading true ov} := by
  intro reg hready
  simp only [dispatch, IocpCore.dispatchBy]
  split_ifs
  · exact leaves_disconnect (.inr ⟨ov, rfl⟩) reg hready
  · refine Safe.bind ⟨trivial, Safe.bind (safely_onRead h ⟨trivial, hready, rfl⟩ fun ov' => ?_)⟩
    exact leaves_disconnect (.inr ⟨ov', rfl⟩) reg hready

/-- Dequeuing the accept. -/
theorem safely_dequeueAccept {post : Bool → Other → Multiset Duty → Prop}
    (hnone : post false reg 0) (hsome : post true reg {.accept}) :
    Safely dequeueAccept post reg 0 := by
  refine Safe.update trivial fun s F _ hi => ?_
  by_cases haccepting : s.accepting = true
  · obtain ⟨⟨w, hw⟩, hr⟩ := hi
    rw [zero_add] at hw hr
    have hone := hr.one
    rw [haccepting, Bool.toNat_true] at hone
    have hposted : s.receive ≠ .posted := fun h => by
      rw [decide_eq_true h, Bool.toNat_true] at hone
      omega
    have hsane : Sane { s with accepting := false } ({.accept} + F) := by
      refine ⟨⟨w, ?_⟩, receives_singleton (by omega) rfl hposted
        (fun _ => hr.fresh (.inl haccepting)) fun _ _ he => Duty.noConfusion he⟩
      rw [Sends, due_opens _ _ rfl]
      exact hw
    exact ⟨true, { s with accepting := false }, reg, if_pos haccepting,
      fun _ => ⟨.same rfl rfl rfl, {Duty.accept}, hsane, trivial, hsome⟩⟩
  · exact ⟨false, s, reg, if_neg haccepting, fun _ => ⟨.same rfl rfl rfl, 0, hi, trivial, hnone⟩⟩

/-- Dequeuing a receive. -/
theorem safely_dequeueRecv {chunk : List UInt8} {post : Bool → Other → Multiset Duty → Prop}
    (hnone : post false reg 0)
    (hsome : ∀ ov rest, (ov.produce chunk.length).Waits rest → post true reg {.reading true ov}) :
    Safely (dequeueRecv chunk) post reg 0 := by
  refine Safe.update trivial fun s F _ hi => ?_
  by_cases hreceive : s.receive = .posted ∧ chunk.length ≤ s.session.readOv_.wsaBuf_.len
  · obtain ⟨⟨w, hw⟩, hr⟩ := hi
    rw [zero_add] at hw hr
    obtain ⟨rest, hawaits⟩ := hr.awaits hreceive.1
    have hone := hr.one
    rw [decide_eq_true hreceive.1, Bool.toNat_true] at hone
    have haccepting : s.accepting = false := Bool.toNat_eq_zero.mp (by omega)
    refine ⟨true, _, reg, if_pos hreceive, fun _ => ⟨⟨Nat.le_succ _,
      fun h => absurd h (Nat.succ_ne_self _), fun _ h => h⟩,
      {Duty.reading true { s.session.readOv_ with
        buffer_ := s.session.readOv_.buffer_.write s.session.readOv_.wsaBuf_.buf chunk }},
      ⟨⟨w, ?_⟩, ?_⟩, trivial, hsome _ _ (hawaits.received hreceive.2)⟩⟩
    · rw [Sends, due_opens _ _ rfl]
      exact hw.congr rfl rfl
    · refine receives_singleton (by omega) haccepting (fun h => Receive.noConfusion h)
        (fun h => Duty.noConfusion h) fun heard ov he => ?_
      cases he
      exact ⟨rfl, fun _ => rfl⟩
  · exact ⟨false, s, reg, if_neg hreceive, fun _ => ⟨.same rfl rfl rfl, 0, hi, trivial, hnone⟩⟩

/-- Dequeuing a send puts the thread in charge of its completion. -/
theorem safely_dequeueSend {i n : Nat} {post : Bool → Other → Multiset Duty → Prop}
    (hnone : post false reg 0) (hsome : 0 < n → post true reg {.completion n}) :
    Safely (dequeueSend i n) post reg 0 := by
  refine Safe.update trivial fun s F _ hi => ?_
  have hstay : Sheltered s → discipline.change s s 0 ∧
      ∃ r', discipline.inv s (r' + F) ∧ True ∧ post false reg r' :=
    fun _ => ⟨.same rfl rfl rfl, 0, hi, trivial, hnone⟩
  obtain ⟨⟨w, hw⟩, hr⟩ := hi
  rw [zero_add] at hw hr
  cases hlen : s.outstanding[i]? with
  | none => exact ⟨false, s, reg, rfl, hstay⟩
  | some len =>
      by_cases hn : n ≤ len ∧ (0 < len → 0 < n)
      · have hmem : len ∈ (s.outstanding : Multiset Nat) := List.mem_of_getElem? hlen
        obtain ⟨hsending, hpos, hle, hone⟩ := hw.of_mem (Multiset.mem_add.mpr (.inl hmem))
        have hcard := congrArg Multiset.card hone
        rw [due, Multiset.card_add, Multiset.card_singleton, Multiset.coe_card] at hcard
        obtain ⟨hi, -⟩ := List.getElem?_eq_some_iff.mp hlen
        have hin : completions F = 0 := Multiset.card_eq_zero.mp (by omega)
        have herase : s.outstanding.eraseIdx i = [] := by
          refine List.eq_nil_of_length_eq_zero ?_
          rw [List.length_eraseIdx_of_lt hi]
          omega
        refine ⟨true, { s with outstanding := s.outstanding.eraseIdx i }, reg, if_pos hn,
          fun _ => ⟨.same rfl rfl rfl, {Duty.completion n}, ⟨⟨w, ?_⟩, ?_⟩, trivial,
            hsome (hn.2 hpos)⟩⟩
        · rw [Sends, due, completions_add, completions_completion, hin, add_zero, herase]
          exact ⟨hw.queued, fun h => Bool.noConfusion (hsending.symm.trans h),
            fun _ => .inr ⟨n, hn.2 hpos, hn.1.trans hle, rfl⟩⟩
        · exact receives_completion.mpr (hr.congr rfl rfl rfl rfl)
      · exact ⟨false, s, reg, if_neg hn, hstay⟩

end Isolation

end ServerStudy
