import ServerStudy.Server.Sending

/-!
# ServerStudy.Server.Receiving

`OnRead` and `RegisterRead` of the session that a thread is at work on.

* `Triple.registerRead` — a receive is posted, or the thread may still post one;
* `Triple.onRead` — the same for the completion of a receive, whatever the
  packets in it make the server do.
-/

namespace ServerStudy

namespace Server

open SessionManager

variable {N : Nat} {m : Terms} {w : Fin N} {h : UInt64} {ks : Multiset Stage}
  {execute : Nat → Prog (World N × Unit) (Socket N) Fault Bool}

/-! ## small steps -/

/-- A read of the session. -/
theorem Triple.readSession {α : Type} (f : Session → α) (hpin : Pinned ks) :
    Triple m w h ks ((sessionLens (World.port N) w).read f) (Kind ks) :=
  Triple.read hpin fun _ _ _ _ => rfl

/-- The session's own handle. -/
theorem Triple.readHandle (hpin : Pinned ks) {k : Stage} (hk : k ∈ ks) (hkind : k.under = true) :
    Triple m w h ks ((sessionLens (World.port N) w).read fun s => s.handle_) (Same h ks) :=
  Triple.read hpin fun s F hh hbal => by
    have hnamed := hbal.named_of_mem (Multiset.mem_add.mpr (.inl hk)) hkind
    have hhandle : (s.manager.session w).handle_ = s.manager.handleAt w :=
      of_decide_eq_true (Bool.toNat_eq_one.mp hnamed)
    exact ⟨hhandle.trans hh, rfl⟩

/-- The buffer and the positions of `readOv_` are changed. -/
theorem account_readOv {x : Slot} {y : OverlappedEx}
    (hptr : y.sessionPtr_ = x.session.readOv_.sessionPtr_)
    (htype : y.ioType_ = x.session.readOv_.ioType_) :
    ∃ d, d ≤ 1 ∧ Slot.account { x with session := { x.session with readOv_ := y } } =
      { x.account with dirtyRead := d } := by
  refine ⟨(dirty y).toNat, Bool.toNat_le _, ?_⟩
  simp only [Slot.account, hptr, htype]

/-! ## posting a receive -/

/-- `readOv_.sessionPtr_ = GetSession(handle)`. -/
theorem Triple.armRecv (hN : N < 2 ^ 32) :
    Triple m w h (.typedRecv ::ₘ ks)
      ((sessionPort (World.port N) execute w).assignSessionPtr .read h)
      (Same () (.armedRecv ::ₘ ks)) := by
  have hfree : ∀ {k : Stage}, k.needsNoRead = true → ∀ v F,
      Balanced m v (k ::ₘ ks + F) → v.cell .read = 0 := fun hk v F hbal => by
    have hf := hbal.readFree
    rw [Multiset.cons_add, tally_cons, hk] at hf
    simp only [Bool.toNat_true] at hf
    change v.read = 0
    omega
  refine (Triple.managerOf (pinned_cons (by decide) ks)).same_bind ?_
  refine (Triple.getSession hN (pinned_cons (by decide) ks) (refs_pos_of_counts rfl)
    (Q := fun p ks' => p = ⟨true, h⟩ ∧ ks' = .ref ::ₘ .typedRecv ::ₘ ks ∨
      p.pool_ = false ∧ ks' = .deafRecv ::ₘ ks) (.inl ⟨rfl, rfl⟩)
    fun v F hbal he => ⟨.deafRecv ::ₘ ks, ?_, fun p hp => .inr ⟨hp, rfl⟩⟩).bind fun p ks' hp => ?_
  · rw [Multiset.cons_add] at hbal ⊢
    exact hbal.armNull he
  · rcases hp with ⟨rfl, rfl⟩ | ⟨hnull, rfl⟩
    · refine Triple.assignCell (pinned_cons (by decide) _) (.inl rfl) (fun v F hbal => ?_)
        fun v F hbal => ?_
      · rw [Multiset.cons_swap] at hbal
        have hf := hbal.readFree
        simp only [Multiset.cons_add, tally_cons, Stage.needsNoRead, Bool.toNat_true] at hf
        change v.read = 0
        omega
      · rw [live_self]
        simp only [Multiset.cons_add] at hbal ⊢
        exact hbal.armRecv
    · refine Triple.assignCell (pinned_cons (by decide) _) (.inr hnull) (hfree rfl) fun v F hbal => ?_
      rw [live_of_pool hnull]
      simp only [Multiset.cons_add] at hbal ⊢
      exact hbal.armDeaf

/-- `WSARecv` posts a receive on a socket that is not closed, or nothing. -/
theorem wp_wsaRecv {s : World N} {wsaBuf : WsaBuf} {post : WsaResult → World N × Unit → Prop}
    (hposted : ∀ r : WsaResult, r.posted = true → s.closed w = false → post r (s.post w .recv, ()))
    (hfailed : ∀ r : WsaResult, r.posted = false → post r (s, ())) :
    Prog.wp m.answers (Tolerated m) ((World.port N).wsaRecv w wsaBuf) post (s, ()) := by
  intro r hr
  cases hr' : r.posted with
  | false =>
      simp [hr']
      exact hfailed r hr'
  | true =>
      have hopen : s.closed w = false := by
        by_contra hc
        rw [hr.1 (by simpa using hc)] at hr'
        cases hr'
      simp [hr']
      exact hposted r hr' hopen

theorem Triple.wsaRecv (wsaBuf : WsaBuf) :
    Triple m w h (.armedRecv ::ₘ ks) ((World.port N).wsaRecv w wsaBuf)
      (fun r ks' => r.posted = true ∧ ks' = .ref ::ₘ ks ∨
        r.posted = false ∧ ks' = .armedRecv ::ₘ ks) :=
  Triple.atomically (fun s F hh hrepr hbal => by
    change Prog.wp _ _ ((World.port N).wsaRecv w wsaBuf) _ _
    refine wp_wsaRecv (fun r hr hopen => ?_) fun r hr => ?_
    · have hzero : (s.slot w).account.closed = 0 := by simp [Slot.account, World.slot, hopen]
      have ht := touch_setPosted (w := w) hrepr .recv (s.posted w .recv + 1)
      refine ⟨_, .ref ::ₘ ks, ht, hh, .stay rfl rfl, ?_, .inl ⟨hr, rfl⟩⟩
      rw [Multiset.cons_add] at hbal ⊢
      have hbal' := hbal.postRecv hzero
      simpa [Slot.account, World.slot] using hbal'
    · exact ⟨_, _, Touch.refl w hrepr, hh, .stay rfl rfl, hbal, .inr ⟨hr, rfl⟩⟩)
    (pinned_cons (by decide) ks)

/-- The pointer in `readOv_` is taken back, where there is one. -/
theorem Triple.disarmRecv (hN : N < 2 ^ 32) :
    Triple m w h (.armedRecv ::ₘ ks) (reset (World.port N) (ovPtrLens (World.port N) w .read))
      (Same () (.reader ::ₘ ks)) := by
  have hpin : Pinned (.armedRecv ::ₘ ks) := pinned_cons (by decide) ks
  refine Triple.same_bind (K := .reader ::ₘ ks) (b := false) (Triple.bind
    (Q := fun p K => p = ⟨true, h⟩ ∧ K = .ref ::ₘ .held .recv ::ₘ ks ∨
      p.pool_ = false ∧ K = .reader ::ₘ ks) (Triple.update (Lawful.keep fun s F hh hbal => ?_) hpin)
    fun p K hp => ?_) (Triple.done ⟨rfl, rfl⟩)
  · -- a pointer that is there is taken back like that of a completion
    subst hh
    rw [Multiset.cons_add] at hbal
    have hfree := hbal.readFree
    have hcases : (s.slot w).account.read = 0 ∨ (s.slot w).account.read = 1 := by omega
    rcases hcases with hr | hr
    · have hptr := Slot.null_cell (i := .read) hbal.stray hr
      refine ⟨rfl, .reader ::ₘ ks, ?_, .inr ⟨hptr, rfl⟩⟩
      rw [Multiset.cons_add]
      exact hbal.disarmNull hr
    · have hptr := Slot.live_cell (i := .read) hr
      refine ⟨rfl, .ref ::ₘ .held .recv ::ₘ ks, ?_, .inl ⟨hptr, rfl⟩⟩
      simp only [Multiset.cons_add]
      exact hbal.retract hr
  · rcases hp with ⟨rfl, rfl⟩ | ⟨hpool, rfl⟩
    · refine Triple.resetRead hN (by decide) (fun v F hbal => ?_) fun v F hbal => ?_
      · have hcell := hbal.readCell
        have hfree := hbal.readFree
        simp only [tally_cons, Stage.needsRead, Bool.toNat_true] at hcell
        change v.read = 1
        omega
      · rw [Multiset.cons_add] at hbal ⊢
        exact hbal.takeRecv.read
    · dsimp only
      rw [hpool]
      exact Triple.done ⟨rfl, rfl⟩

/-- `RegisterRead`. -/
theorem Triple.registerRead (hN : N < 2 ^ 32) :
    Triple m w h (.reader ::ₘ ks) (Session.registerRead (sessionPort (World.port N) execute w))
      (fun b ks' => b = true ∧ ks' = .ref ::ₘ ks ∨ b = false ∧ ks' = .reader ::ₘ ks) := by
  have hlen : Triple m w h (.reader ::ₘ ks)
      ((sessionPort (World.port N) execute w).self.update fun s =>
        .ok (toULong (add64 (sub64 OverlappedEx.getSize s.readOv_.writePos_) s.readOv_.readPos_),
          { s with readOv_.wsaBuf_.len := toULong (add64 (sub64 OverlappedEx.getSize
            s.readOv_.writePos_) s.readOv_.readPos_) })) (Kind (.reader ::ₘ ks)) :=
    Triple.updateSession (pinned_cons (by decide) ks) (fun _ _ he => by cases he)
      fun x F a y _ hf hbal => by
        injection hf with hf
        injection hf with _ hy
        subst hy
        exact ⟨_, hbal, rfl⟩
  refine hlen.kind_bind fun len => ?_
  split_ifs
  · exact Triple.done (.inr ⟨rfl, rfl⟩)
  refine Triple.same_bind (K := .typedRecv ::ₘ ks) (b := ()) (Triple.modifySession
    (pinned_cons (by decide) ks) fun x F _ hbal => ?_) ?_
  · rw [Multiset.cons_add] at hbal ⊢
    exact hbal.setRecv
  refine (Triple.readHandle (pinned_cons (by decide) ks) (Multiset.mem_cons_self _ _) rfl).same_bind ?_
  refine (Triple.armRecv hN).same_bind ?_
  refine (Triple.readSession _ (pinned_cons (by decide) ks)).kind_bind fun wsaBuf => ?_
  refine (Triple.wsaRecv wsaBuf).bind fun r ks' hr => ?_
  rcases hr with ⟨hposted, rfl⟩ | ⟨hposted, rfl⟩
  · cases r with
    | ok => exact Triple.done (.inl ⟨rfl, rfl⟩)
    | socketError errorCode =>
        have hcode : errorCode = WSA_IO_PENDING := of_decide_eq_true hposted
        simp only [hcode, if_true]
        exact Triple.done (.inl ⟨rfl, rfl⟩)
  · cases r with
    | ok => cases hposted
    | socketError errorCode =>
        have hcode : errorCode ≠ WSA_IO_PENDING := of_decide_eq_false hposted
        simp only [hcode, if_false]
        exact (Triple.disarmRecv hN).same_bind (Triple.done (.inr ⟨rfl, rfl⟩))

/-! ## a receive completes -/

/-- A session that is being received on was connected once. -/
theorem Balanced.in_use_recv {v : Account} {F : Multiset Stage} {k : Stage}
    (hbal : Balanced m v (k ::ₘ F)) (hrecv : k.receives = true) (hcounts : k.counts = true) :
    InUse m v (k ::ₘ F) := by
  have hreceiving := hbal.receiving
  have hr := hbal.refs
  have hgone := hbal.released
  have hw := hbal.wholeOne
  simp only [tally_cons, hrecv, Bool.toNat_true] at hreceiving
  simp only [tally_cons, hcounts, Bool.toNat_true] at hr
  rw [InUse]
  omega

/-- The positions of `readOv_` change. -/
theorem Triple.soilRead {f : OverlappedEx → OverlappedEx}
    (hptr : ∀ ov, (f ov).sessionPtr_ = ov.sessionPtr_) (htype : ∀ ov, (f ov).ioType_ = ov.ioType_) :
    Triple m w h (.own .recv ::ₘ ks)
      ((sessionLens (World.port N) w).modify fun s => { s with readOv_ := f s.readOv_ })
      (Same () (.own .recv ::ₘ ks)) :=
  Triple.modifySession (pinned_cons (by decide) ks) fun x F _ hbal => by
    obtain ⟨d, hd, haccount⟩ := account_readOv (x := x) (y := f x.session.readOv_) (hptr _) (htype _)
    rw [haccount]
    rw [Multiset.cons_add] at hbal ⊢
    exact hbal.soilRead (hbal.in_use_recv rfl rfl) hd

/-- The loop of `OnRead`, where `Execute` minds its own business. -/
theorem Triple.parse (hexec : ∀ off, Triple m w h (.own .recv ::ₘ ks) (execute off)
      (Kind (.own .recv ::ₘ ks))) (turns : Nat) :
    Triple m w h (.own .recv ::ₘ ks) (Session.parse (sessionPort (World.port N) execute w) turns)
      (Kind (.own .recv ::ₘ ks)) := by
  have hpin : Pinned (.own .recv ::ₘ ks) := pinned_cons (by decide) ks
  have hheader : ∀ off, Triple m w h (.own .recv ::ₘ ks)
      (Session.readHeader (sessionPort (World.port N) execute w) off) (Kind (.own .recv ::ₘ ks)) :=
    fun off => Triple.load hpin (fun _ _ he => tolerated_map (tolerated_load _) _ he)
  induction turns with
  | zero => exact Triple.fault (tolerated_of_ne (by decide))
  | succ turns ih =>
      unfold Session.parse
      refine (Triple.readSession _ hpin).kind_bind fun availableData => ?_
      refine Triple.ite (fun _ => Triple.done rfl) fun _ => ?_
      refine (Triple.readSession _ hpin).kind_bind fun off => (hheader off).kind_bind fun header => ?_
      refine Triple.ite (fun _ => Triple.done rfl) fun _ => Triple.ite (fun _ => Triple.done rfl) fun _ => ?_
      refine (hexec off).kind_bind fun b => Triple.ite (fun _ => Triple.done rfl) fun _ => ?_
      refine (hheader off).kind_bind fun header => ?_
      exact (Triple.soilRead (f := fun ov => ov.consume header.size.toNat) (fun _ => rfl)
        fun _ => rfl).same_bind ih

/-- `OnRead`. -/
theorem Triple.onRead (hN : N < 2 ^ 32) (hexec : ∀ off, Triple m w h (.own .recv ::ₘ ks)
      (execute off) (Kind (.own .recv ::ₘ ks))) (bytesTransferred : Nat) :
    Triple m w h (.own .recv ::ₘ ks)
      (Session.onRead (sessionPort (World.port N) execute w) bytesTransferred)
      (fun b ks' => b = true ∧ ks' = .ref ::ₘ ks ∨
        b = false ∧ (ks' = .own .recv ::ₘ ks ∨ ks' = .reader ::ₘ ks)) := by
  have hpin : Pinned (.own .recv ::ₘ ks) := pinned_cons (by decide) ks
  unfold Session.onRead
  refine (Triple.soilRead (f := fun ov => ov.produce bytesTransferred) (fun _ => rfl)
    fun _ => rfl).same_bind ?_
  refine (Triple.readSession _ hpin).kind_bind fun turns => (Triple.parse hexec turns).kind_bind fun b => ?_
  refine Triple.ite (fun _ => Triple.done (.inr ⟨rfl, .inl rfl⟩)) fun _ => ?_
  refine Triple.same_bind (K := .reader ::ₘ ks) (b := ()) (Triple.modifySession hpin
    fun x F _ hbal => ?_) ?_
  · obtain ⟨d, hd, haccount⟩ := account_readOv (x := x) (y := x.session.readOv_.rewind)
      (OverlappedEx.rewind_sessionPtr_ _) (OverlappedEx.rewind_ioType_ _)
    rw [Multiset.cons_add] at hbal ⊢
    rw [haccount]
    exact (hbal.soilRead (hbal.in_use_recv rfl rfl) hd).read
  refine (Triple.registerRead hN).bind fun b ks' hb => ?_
  rcases hb with ⟨rfl, rfl⟩ | ⟨rfl, rfl⟩
  · exact Triple.done (.inl ⟨rfl, rfl⟩)
  · exact Triple.done (.inr ⟨rfl, .inr rfl⟩)

end Server

end ServerStudy
