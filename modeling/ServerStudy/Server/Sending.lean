import ServerStudy.Server.Triple

/-!
# ServerStudy.Server.Sending

`SendPacket` and what it calls, on the session in any slot that was used before:
the session may be anybody's by now, or nobody's.

* `wp_registerWriteInternal` — what is left when a send is posted, and when not;
* `wp_sendPacket` — the books of the slot agree either way.
-/

namespace ServerStudy

namespace Server

open SessionManager

variable {N : Nat} {m : Terms} {s s' s'' : World N} {w : Fin N} {v v' : Account}

/-! ## accounts of a slot -/

theorem eq_of_toNat {a b : Bool} (h : a.toNat = b.toNat) : a = b := by
  cases a <;> cases b <;> simp at h ⊢

/-- One slot has another account, in the same state and generation. -/
structure Becomes (w : Fin N) (s s' : World N) (v : Account) : Prop where
  touch : Touch w s s' (s'.slot w)
  handle : s'.manager.handleAt w = s.manager.handleAt w
  state : s'.manager.state w = s.manager.state w
  account : (s'.slot w).account = v

theorem Becomes.trans (h : Becomes w s s' v) (h' : Becomes w s' s'' v') : Becomes w s s'' v' :=
  ⟨h.touch.trans h'.touch, h'.handle.trans h.handle, h'.state.trans h.state, h'.account⟩

theorem Becomes.refl (w : Fin N) (hrepr : ∃ b, SparseSet.Repr s.manager.sessionPool_.set b) :
    Becomes w s s (s.slot w).account := ⟨.refl w hrepr, rfl, rfl, rfl⟩

theorem Becomes.of_touch {y : Slot} (h : Touch w s s' y) (hhandle : y.handle = s.manager.handleAt w)
    (hstate : y.state = s.manager.state w) (haccount : y.account = v) : Becomes w s s' v := by
  obtain ⟨hrepr, rfl, hother, hhistory⟩ := h
  exact ⟨⟨hrepr, rfl, hother, hhistory⟩, hhandle, hstate, haccount⟩

/-- A session is changed. -/
theorem becomes_setSession (hrepr : ∃ b, SparseSet.Repr s.manager.sessionPool_.set b) {y : Session}
    (hy : Slot.account { s.slot w with session := y } = v) :
    Becomes w s (s.setManager (s.manager.setSession w y)) v :=
  .of_touch (touch_setSession hrepr y) rfl rfl hy

theorem Becomes.evolves (h : Becomes w s s' v) : Evolves (s.slot w) (s'.slot w) :=
  .stay h.state h.handle

theorem Becomes.balanced {ks F : Multiset Stage} {k : Stage} (h : Becomes w s s' v)
    (hbal : Balanced m v (k ::ₘ (ks + F))) : Balanced m (s'.slot w).account (k ::ₘ ks + F) := by
  rw [h.account, Multiset.cons_add]
  exact hbal

/-! ## the pointer of an operation -/

/-- What a slot needs for `GetSession` of its session's handle. -/
structure Asks (v : Account) : Prop where
  stray : v.stray = 0
  entry : v.entry ≤ 1
  handle : v.named + v.unnamed = 1
  handleEntry : v.entry ≤ v.named
  refs : v.entry ≤ v.refs

theorem Balanced.asks {F : Multiset Stage} (h : Balanced m v F) : Asks v := by
  have hentry := h.entryOne
  have hrefs := h.refs
  exact ⟨h.stray, by omega, h.handle, h.handleEntry, by omega⟩

/-- `GetSession` of a session's own handle, which may be invalid. -/
theorem wp_getSession (hN : N < 2 ^ 32) (hx : Asks (s.slot w).account)
    {post : SharedPoolPtr → World N × Unit → Prop}
    (hlive : (s.slot w).account.entry = 1 →
      post ⟨true, s.manager.handleAt w⟩ (s.setManager (s.manager.retain w), ()))
    (hnull : (s.slot w).account.entry = 0 → ∀ q : SharedPoolPtr, q.pool_ = false → post q (s, ())) :
    Prog.wp m.answers (Tolerated m)
      (getSession (World.port N) (s.manager.session w).handle_) post (s, ()) := by
  have hhandle := hx.handle
  have hentry := hx.entry
  have hcases : (s.slot w).account.entry = 0 ∨ (s.slot w).account.entry = 1 := by omega
  unfold getSession
  rw [Prog.bind_eq, Prog.wp_bind, wp_isValid]
  have hget : (World.port N).manager.get (s, ()) = s.manager := rfl
  rw [hget]
  by_cases hnamed : (s.manager.session w).handle_ = s.manager.handleAt w
  · rw [hnamed, isValid_handleAt hN]
    simp only [Bool.not_true, Bool.false_eq_true, if_false, Prog.bind_eq, Prog.wp_bind]
    refine (wp_slot hN s.manager).mpr ?_
    rcases hcases with he | he
    · have hptr := Slot.null_entry hx.stray he
      have hdead : Dead ((World.port N).manager.get (s, ()))
          ((ptrLens (World.port N) w).get (s, ())) := dead_of_pool hptr
      exact (wp_copy_dead hdead).mpr (hnull he _ hptr)
    · have hptr := Slot.live_entry he
      have hl : Live ((World.port N).manager.get (s, ())) w
          ((ptrLens (World.port N) w).get (s, ())) := hptr
      refine (wp_copy_live hN hl).mpr ?_
      have hp := hlive he
      rw [show (⟨true, s.manager.handleAt w⟩ : SharedPoolPtr) =
        (ptrLens (World.port N) w).get (s, ()) from hptr.symm] at hp
      exact hp
  · have hzero : (s.slot w).account.named = 0 := by
      simp [Slot.account, World.slot, hnamed]
    have hinvalid : (s.manager.session w).handle_ = kInvalidHandle := by
      have hone : (s.slot w).account.unnamed = 1 := by omega
      exact of_decide_eq_true (Bool.toNat_eq_one.mp hone)
    have hsub := hx.handleEntry
    rw [hinvalid, SparseSet.isValid_kInvalidHandle hN]
    exact hnull (by omega) _ rfl

/-- `Reset` of the pointer of an operation, which is not the last. -/
theorem wp_resetCell (hN : N < 2 ^ 32) (hrepr : ∃ b, SparseSet.Repr s.manager.sessionPool_.set b)
    {i : Ov} (hstray : (s.slot w).account.stray = 0) (hle : (s.slot w).account.cell i ≤ 1)
    (hmany : (s.slot w).account.cell i = 1 → 1 < (s.slot w).account.refs)
    {post : Unit → World N × Unit → Prop}
    (hpost : ∀ s', Becomes w s s' (({ (s.slot w).account with
      refs := (s.slot w).account.refs - (s.slot w).account.cell i } : Account).setCell 0 i) →
      post () (s', ())) :
    Prog.wp m.answers (Tolerated m) (reset (World.port N) (ovPtrLens (World.port N) w i)) post
      (s, ()) := by
  have hcases : (s.slot w).account.cell i = 0 ∨ (s.slot w).account.cell i = 1 := by omega
  rcases hcases with hi | hi
  · have hptr := Slot.null_cell hstray hi
    have hdead : Dead ((World.port N).manager.get (s, ()))
        ((ovPtrLens (World.port N) w i).get (s, ())) := dead_of_pool hptr
    have hp := hpost s
    rw [Account.setCell_zero _ hi] at hp
    exact (wp_reset_dead hdead).mpr (hp (.refl w hrepr))
  · have hptr := Slot.live_cell hi
    have hlive : Live ((World.port N).manager.get (s, ())) w
        ((ovPtrLens (World.port N) w i).get (s, ())) := hptr
    have hcount : 1 < ((World.port N).manager.get (s, ())).refCount w := hmany hi
    have hdisc := touch_recount (w := w) hrepr (s.manager.refCount w - 1)
    have htouch := hdisc.trans (touch_setOvPtr hdisc.repr i .null)
    rw [hdisc.slot] at htouch
    have haccount := Slot.account_setCell (x := { s.slot w with refs := s.manager.refCount w - 1 })
      (i := i) (p := .null) hstray (stray_of_pool rfl)
    rw [live_of_pool rfl] at haccount
    refine (wp_reset_many hN hlive hcount).mpr (hpost _ ?_)
    rw [hi]
    exact .of_touch htouch rfl rfl haccount

/-- A read of a session that may fault. -/
theorem wp_viewSession {α : Type} {f : Session → Except Fault α}
    {post : α → World N × Unit → Prop}
    (hbad : ∀ e, f (s.manager.session w) = .error e → Tolerated m e) (hpost : ∀ a, post a (s, ())) :
    Prog.wp m.answers (Tolerated m) ((sessionLens (World.port N) w).view f) post (s, ()) := by
  have hget : (sessionLens (World.port N) w).get (s, ()) = s.manager.session w := rfl
  simp only [Lens.view, Prog.update, Prog.wp, hget]
  cases hf : f (s.manager.session w) with
  | error e => exact hbad e hf
  | ok a => exact hpost a

/-- `*sessionManager_` fails where there is none. -/
theorem tolerated_managerOf {x : Session} (e : Fault)
    (he : (if x.sessionManager_ then .ok () else .error .nullPointer : Except Fault Unit) = .error e) :
    Tolerated m e := by
  split_ifs at he
  cases he
  exact tolerated_of_ne (by decide)

/-- `sessionPtr_ = GetSession(handle_)`, where there is no pointer yet. -/
theorem wp_assignSessionPtr (hN : N < 2 ^ 32)
    (hrepr : ∃ b, SparseSet.Repr s.manager.sessionPool_.set b) {i : Ov}
    {execute : Nat → Prog (World N × Unit) (Socket N) Fault Bool} (hx : Asks (s.slot w).account)
    (hfree : (s.slot w).account.cell i = 0) {post : Unit → World N × Unit → Prop}
    (hpost : ∀ s', Becomes w s s' (({ (s.slot w).account with
      refs := (s.slot w).account.refs + (s.slot w).account.entry } : Account).setCell
        (s.slot w).account.entry i) → post () (s', ())) :
    Prog.wp m.answers (Tolerated m)
      ((sessionPort (World.port N) execute w).assignSessionPtr i (s.manager.session w).handle_) post
      (s, ()) := by
  have hptr := Slot.null_cell hx.stray hfree
  refine Prog.wp_bind.mpr (wp_viewSession tolerated_managerOf fun _ => Prog.wp_bind.mpr
    (wp_getSession hN hx (fun he => ?_) fun he q hq => ?_))
  · have hcount := touch_recount (w := w) hrepr (s.manager.refCount w + 1)
    have htouch := hcount.trans (touch_setOvPtr hcount.repr i ⟨true, s.manager.handleAt w⟩)
    rw [hcount.slot] at htouch
    have haccount := Slot.account_setCell (x := { s.slot w with refs := s.manager.refCount w + 1 })
      (i := i) (p := ⟨true, s.manager.handleAt w⟩) hx.stray (stray_self _)
    have hdead : Dead ((World.port N).manager.get (s.setManager (s.manager.retain w), ()))
        ((ovPtrLens (World.port N) w i).get (s.setManager (s.manager.retain w), ())) :=
      dead_of_pool hptr
    refine (wp_assign_dead hdead).mpr (hpost _ ?_)
    rw [he]
    exact .of_touch htouch rfl rfl
      (haccount.trans (congrArg (fun n => Account.setCell _ n i) (live_self _)))
  · have htouch := touch_setOvPtr (w := w) hrepr i q
    have haccount := Slot.account_setCell (x := s.slot w) (i := i) (p := q) hx.stray (stray_of_pool hq)
    have hdead : Dead ((World.port N).manager.get (s, ()))
        ((ovPtrLens (World.port N) w i).get (s, ())) := dead_of_pool hptr
    refine (wp_assign_dead hdead).mpr (hpost _ ?_)
    rw [he]
    exact .of_touch htouch rfl rfl
      (haccount.trans (congrArg (fun n => Account.setCell _ n i) (live_of_pool hq)))

/-! ## sending -/

/-- `WSASend` posts a send on a socket that is not closed, or nothing. -/
theorem wp_wsaSend {wsaBuf : WsaBuf} {post : WsaResult → World N × Unit → Prop}
    (hposted : ∀ r : WsaResult, r.posted = true → s.closed w = false → post r (s.post w .send, ()))
    (hfailed : ∀ r : WsaResult, r.posted = false → post r (s, ())) :
    Prog.wp m.answers (Tolerated m) ((World.port N).wsaSend w wsaBuf) post (s, ()) := by
  intro r hr
  cases hr' : r.posted with
  | false =>
      simp [hr']
      exact hfailed r hr'
  | true =>
      have hopen : s.closed w = false := by
        by_contra hc
        rw [hr.1 (by simpa using hc)] at hr'
        cases hr'
      simp [hr']
      exact hposted r hr' hopen

/-- A change of a session that may fault. -/
theorem wp_updateSession {α : Type} {f : Session → Except Fault (α × Session)}
    {post : α → World N × Unit → Prop}
    (hbad : ∀ e, f (s.manager.session w) = .error e → Tolerated m e)
    (hpost : ∀ a y, f (s.manager.session w) = .ok (a, y) →
      post a (s.setManager (s.manager.setSession w y), ())) :
    Prog.wp m.answers (Tolerated m) ((sessionLens (World.port N) w).update f) post (s, ()) := by
  have hget : (sessionLens (World.port N) w).get (s, ()) = s.manager.session w := rfl
  simp only [Lens.update, Prog.update, Prog.wp, hget]
  cases hf : f (s.manager.session w) with
  | error e => exact hbad e hf
  | ok r => exact hpost r.1 r.2 hf

/-- `RegisterWriteInternal`. -/
theorem wp_registerWriteInternal (hN : N < 2 ^ 32)
    (hrepr : ∃ b, SparseSet.Repr s.manager.sessionPool_.set b)
    {execute : Nat → Prog (World N × Unit) (Socket N) Fault Bool} (hx : Asks (s.slot w).account)
    (hfree : (s.slot w).account.write = 0)
    (hused : 1 ≤ (s.slot w).account.closed + (s.slot w).account.entry)
    (hsending : (s.manager.session w).isSending_ = true)
    {post : Bool → World N × Unit → Prop}
    (hposted : ∀ s', s.closed w = false → Becomes w s s' { (s.slot w).account with
      ioSend := 1, write := 1, refs := (s.slot w).account.refs + 1
      send := (s.slot w).account.send + 1 } → post true (s', ()))
    (hfailed : ∀ s', Becomes w s s' { (s.slot w).account with ioSend := 1 } → post false (s', ())) :
    Prog.wp m.answers (Tolerated m)
      (Session.registerWriteInternal (sessionPort (World.port N) execute w)) post (s, ()) := by
  unfold Session.registerWriteInternal
  refine Prog.wp_bind.mpr (wp_updateSession (fun e he => by
    rw [if_pos hsending] at he
    cases he) fun _ y hy => ?_)
  have hy' : Slot.account { s.slot w with session := y } =
      { (s.slot w).account with ioSend := 1 } := by
    split_ifs at hy
    injection hy with hy
    injection hy with _ hy
    subst hy
    rfl
  have hbec := becomes_setSession hrepr hy'
  generalize s.setManager (s.manager.setSession w y) = s₁ at hbec
  have hopen : s₁.closed w = s.closed w := by
    have hc := congrArg Account.closed hbec.account
    exact eq_of_toNat hc
  have hx₁ : Asks (s₁.slot w).account := by
    rw [hbec.account]
    exact ⟨hx.stray, hx.entry, hx.handle, hx.handleEntry, hx.refs⟩
  have hfree₁ : (s₁.slot w).account.cell .write = 0 := by
    rw [hbec.account]
    exact hfree
  refine Prog.wp_bind.mpr ?_
  refine Prog.wp_bind.mpr (wp_assignSessionPtr hN hbec.touch.repr hx₁ hfree₁ fun s₂ h₂ => ?_)
  refine Prog.wp_bind.mpr ?_
  have hopen₂ : s₂.closed w = s₁.closed w := by
    have hc := congrArg Account.closed h₂.account
    exact eq_of_toNat hc
  refine Prog.wp_bind.mpr (wp_wsaSend (fun r hr hc => ?_) fun r hr => ?_)
  · rw [hopen₂, hopen] at hc
    have hentry : (s₁.slot w).account.entry = 1 := by
      have h0 : (s.slot w).account.closed = 0 := by simp [Slot.account, World.slot, hc]
      have he := hx.entry
      rw [hbec.account]
      simp only
      omega
    have hpost := hposted (s₂.post w .send) hc
    have h₃ : Becomes w s₂ (s₂.post w .send) { (s₂.slot w).account with
        send := (s₂.slot w).account.send + 1 } :=
      .of_touch (touch_setPosted h₂.touch.repr _ _) rfl rfl (by
        simp [Slot.account, World.slot])
    have hall := (hbec.trans h₂).trans h₃
    rw [h₂.account, hentry, hbec.account] at hall
    cases r with
    | ok => exact hpost hall
    | socketError errorCode =>
        have hcode : errorCode = WSA_IO_PENDING := of_decide_eq_true hr
        simp only [hcode, if_true]
        exact hpost hall
  · have hrefs := hx.refs
    have hentry := hx.entry
    have hcell : (s₂.slot w).account.cell .write = (s.slot w).account.entry := by
      rw [h₂.account, hbec.account]
      rfl
    have hcount : (s₂.slot w).account.refs =
        (s.slot w).account.refs + (s.slot w).account.entry := by
      rw [h₂.account, hbec.account]
      rfl
    have hreset : Prog.wp m.answers (Tolerated m)
        (reset (World.port N) (ovPtrLens (World.port N) w .write))
        (fun _ x => post false x) (s₂, ()) := by
      refine wp_resetCell hN h₂.touch.repr ?_ (by omega) (fun he => by omega) fun s₃ h₃ => ?_
      · rw [h₂.account, hbec.account]
        exact hx.stray
      · have hall := (hbec.trans h₂).trans h₃
        rw [hcell, hcount, h₂.account, hbec.account] at hall
        refine hfailed s₃ ⟨hall.touch, hall.handle, hall.state, hall.account.trans ?_⟩
        simp [Account.setCell, hfree]
    cases r with
    | ok => cases hr
    | socketError errorCode =>
        have hcode : errorCode ≠ WSA_IO_PENDING := of_decide_eq_false hr
        simp only [hcode, if_false]
        exact Prog.wp_bind.mpr hreset

/-- What `memcpy` and the line after it leave. -/
theorem copyIn_eq {packet : List UInt8} {size : Nat} {x y : Session} {u : Unit}
    (h : Session.copyIn packet size x = .ok (u, y)) :
    ∃ buffer, y = { x with writeOv_ := ({ x.writeOv_ with buffer_ := buffer } : OverlappedEx).produce size } := by
  unfold Session.copyIn OverlappedEx.store at h
  split_ifs at h
  cases hw : x.writeOv_.buffer_.write? x.writeOv_.writePos_ (packet.take size) with
  | none =>
      rw [hw] at h
      cases h
  | some buffer =>
      rw [hw] at h
      injection h with h
      injection h with _ h
      exact ⟨buffer, h.symm⟩

theorem tolerated_copyIn {packet : List UInt8} {size : Nat} {x : Session} (e : Fault)
    (he : Session.copyIn packet size x = .error e) : Tolerated m e := by
  unfold Session.copyIn OverlappedEx.store at he
  split_ifs at he
  · cases he
    exact tolerated_of_ne (by decide)
  · cases hw : x.writeOv_.buffer_.write? x.writeOv_.writePos_ (packet.take size) with
    | none =>
        rw [hw] at he
        injection he with he
        subst he
        exact tolerated_of_ne (by decide)
    | some buffer =>
        rw [hw] at he
        cases he

/-- `SendPacket`, on a session that was connected once. -/
theorem wp_sendPacket (hN : N < 2 ^ 32)
    (hrepr : ∃ b, SparseSet.Repr s.manager.sessionPool_.set b)
    {execute : Nat → Prog (World N × Unit) (Socket N) Fault Bool} {F : Multiset Stage}
    (hbal : Balanced m (s.slot w).account F) (hused : (s.slot w).account.accepted = 1)
    (huse : InUse m (s.slot w).account F) (packet : List UInt8) :
    Prog.wp m.answers (Tolerated m)
      (Session.sendPacket (sessionPort (World.port N) execute w) packet)
      (fun _ x => ∃ v, Becomes w s x.1 v ∧ Balanced m v F) (s, ()) := by
  unfold Session.sendPacket
  rw [Prog.wp_atomically, Prog.bind_eq, Prog.wp_bind, Prog.wp_lens_read]
  generalize (PacketHeader.ofBytes packet).size.toNat = size
  by_cases hover : add64 ((sessionPort (World.port N) execute w).self.get (s, ())).writeOv_.available
      size > OverlappedEx.getSize
  · rw [if_pos hover]
    exact ⟨_, .refl w hrepr, hbal⟩
  rw [if_neg hover, Prog.bind_eq, Prog.wp_bind]
  refine wp_updateSession tolerated_copyIn fun _ y hy => ?_
  obtain ⟨d, hd, haccount⟩ : ∃ d, d ≤ 1 ∧
      Slot.account { s.slot w with session := y } = { (s.slot w).account with dirtyWrite := d } := by
    obtain ⟨buffer, rfl⟩ := copyIn_eq hy
    exact ⟨_, Bool.toNat_le _, rfl⟩
  have h₁ := becomes_setSession hrepr haccount
  generalize s.setManager (s.manager.setSession w y) = s₁ at h₁ ⊢
  have hbal₁ := hbal.soilWrite huse hd
  rw [← h₁.account] at hbal₁
  rw [Prog.bind_eq, Prog.wp_bind, Prog.wp_lens_read]
  have hget : (sessionPort (World.port N) execute w).self.get (s₁, ()) = s₁.manager.session w := rfl
  rw [hget]
  cases hsending : (s₁.manager.session w).isSending_ with
  | true => exact ⟨_, h₁, h₁.account ▸ hbal₁⟩
  | false =>
      simp only [Bool.not_false, if_true]
      rw [Prog.bind_eq, Prog.wp_bind, Prog.wp_lens_modify, Prog.bind_eq, Prog.wp_bind]
      have h₂ := becomes_setSession (w := w) (v := { (s₁.slot w).account with sending := 1 })
        (y := { s₁.manager.session w with isSending_ := true }) h₁.touch.repr rfl
      change Prog.wp _ _ _ _ (s₁.setManager (s₁.manager.setSession w
        { s₁.manager.session w with isSending_ := true }), ())
      generalize s₁.setManager (s₁.manager.setSession w _) = s₂ at h₂ ⊢
      have hzero : (s₁.slot w).account.sending = 0 := by simp [Slot.account, World.slot, hsending]
      have hasks := hbal₁.asks
      have hle := tallies_le F
      have hs := hbal₁.senders
      have hw := hbal₁.writeCell
      have hu := hbal₁.usedClosed
      have hused₁ : (s₁.slot w).account.accepted = 1 := by
        rw [h₁.account]
        exact hused
      have huse₁ : InUse m (s₁.slot w).account F := by
        rw [h₁.account]
        exact huse
      have hsending₂ : (s₂.manager.session w).isSending_ = true :=
        Bool.toNat_eq_one.mp (congrArg Account.sending h₂.account)
      refine wp_registerWriteInternal hN h₂.touch.repr ?_ ?_ ?_ hsending₂ (fun s₃ hc h₃ => ?_)
        fun s₃ h₃ => ?_
      · rw [h₂.account]
        exact ⟨hasks.stray, hasks.entry, hasks.handle, hasks.handleEntry, hasks.refs⟩
      · rw [h₂.account]
        simp only
        omega
      · rw [h₂.account]
        simp only
        omega
      · rw [h₂.account] at h₃
        have hopen : (s₁.slot w).account.closed = 0 := by
          have hclosed := congrArg Account.closed h₂.account
          simpa [Slot.account, World.slot, hc] using hclosed.symm
        exact ⟨_, (h₁.trans h₂).trans h₃, hbal₁.postSend hzero hopen hused₁ huse₁⟩
      · rw [h₂.account] at h₃
        exact ⟨_, (h₁.trans h₂).trans h₃, hbal₁.hold hzero huse₁⟩

/-- A session that is being sent on was connected once. -/
theorem Balanced.in_use {F : Multiset Stage} (h : Balanced m v (.own .send ::ₘ F)) :
    InUse m v (.own .send ::ₘ F) := by
  have hs := h.senders
  have hq := h.quiet
  have hr := h.refs
  have hgone := h.released
  simp only [tally_cons, Stage.sends, Bool.toNat_true] at hs
  simp only [tally_cons, Stage.counts, Bool.toNat_true] at hr
  rw [InUse]
  omega

theorem OverlappedEx.rewind_sessionPtr_ (ov : OverlappedEx) :
    ov.rewind.sessionPtr_ = ov.sessionPtr_ := by
  unfold OverlappedEx.rewind
  split_ifs <;> rfl

theorem OverlappedEx.rewind_ioType_ (ov : OverlappedEx) : ov.rewind.ioType_ = ov.ioType_ := by
  unfold OverlappedEx.rewind
  split_ifs <;> rfl

/-- The buffer and the positions of an `OverlappedEx` are changed. -/
theorem account_writeOv {x : Slot} {y : OverlappedEx}
    (hptr : y.sessionPtr_ = x.session.writeOv_.sessionPtr_)
    (htype : y.ioType_ = x.session.writeOv_.ioType_) :
    ∃ d, d ≤ 1 ∧ Slot.account { x with session := { x.session with writeOv_ := y } } =
      { x.account with dirtyWrite := d } := by
  refine ⟨(dirty y).toNat, Bool.toNat_le _, ?_⟩
  simp only [Slot.account, hptr, htype]

/-- `OnWrite`. -/
theorem lawful_onWrite (hN : N < 2 ^ 32) {h : UInt64} {ks : Multiset Stage}
    {execute : Nat → Prog (World N × Unit) (Socket N) Fault Bool} (bytesTransferred : Nat) :
    Lawful m w h (.own .send ::ₘ ks)
      (Session.onWrite (sessionPort (World.port N) execute w) bytesTransferred)
      (fun b ks' => b = true ∧ ks' = .ref ::ₘ ks ∨ b = false ∧ ks' = .own .send ::ₘ ks) := by
  intro s F hh hrepr hbal
  rw [Multiset.cons_add] at hbal
  unfold Session.onWrite
  rw [Prog.wp_atomically]
  have hon : (s.manager.session w).isSending_ = true := by
    have hs := hbal.senders
    have hx : (s.slot w).account.sending = (s.manager.session w).isSending_.toNat := rfl
    simp only [tally_cons, Stage.sends, Bool.toNat_true] at hs
    exact Bool.toNat_eq_one.mp (by
      have hone := hbal.sending
      omega)
  refine Prog.wp_bind.mpr (wp_viewSession (fun e he => by
    rw [if_pos hon] at he
    cases he) fun _ => ?_)
  rw [Prog.bind_eq, Prog.wp_bind, Prog.wp_lens_modify]
  change Prog.wp _ _ _ _ (s.setManager (s.manager.setSession w { s.manager.session w with
    writeOv_ := ((s.manager.session w).writeOv_.consume bytesTransferred).rewind }), ())
  obtain ⟨d, hd, haccount⟩ := account_writeOv (x := s.slot w)
    (y := ((s.manager.session w).writeOv_.consume bytesTransferred).rewind)
    (OverlappedEx.rewind_sessionPtr_ _) (OverlappedEx.rewind_ioType_ _)
  generalize ((s.manager.session w).writeOv_.consume bytesTransferred).rewind = ov at haccount ⊢
  have h₁ := becomes_setSession hrepr haccount
  change Becomes w s (s.setManager (s.manager.setSession w { s.manager.session w with writeOv_ := ov })) _ at h₁
  generalize s.setManager (s.manager.setSession w { s.manager.session w with writeOv_ := ov }) = s₁ at h₁ ⊢
  have hbal₁ := hbal.soilWrite hbal.in_use hd
  rw [← h₁.account] at hbal₁
  rw [Prog.bind_eq, Prog.wp_bind, Prog.wp_lens_read]
  split_ifs
  · have h₂ := becomes_setSession (w := w) (v := { (s₁.slot w).account with sending := 0 })
      (y := { s₁.manager.session w with isSending_ := false }) h₁.touch.repr rfl
    have hall := h₁.trans h₂
    exact ⟨_, _, hall.touch, hall.handle.trans hh, hall.evolves, hall.balanced hbal₁.sent,
      .inl ⟨rfl, rfl⟩⟩
  · have hasks := hbal₁.asks
    have hle := tallies_le (ks + F)
    have hs := hbal₁.senders
    have hone := hbal₁.sending
    have hw := hbal₁.writeCell
    have hu := hbal₁.usedClosed
    have ha := hbal₁.acceptedSend
    have hone' := hbal₁.acceptedOne
    simp only [tally_cons, Stage.sends, Stage.needsWrite, Bool.toNat_true, Bool.toNat_false] at hs hw ha
    rw [Prog.bind_eq, Prog.wp_bind]
    have hsending : (s₁.manager.session w).isSending_ = true := by
      have hx := congrArg Account.sending h₁.account
      exact eq_of_toNat (hx.trans (congrArg Bool.toNat hon))
    refine wp_registerWriteInternal hN h₁.touch.repr hasks (by omega) (by omega) hsending
      (fun s₃ hc h₃ => ?_) fun s₃ h₃ => ?_
    · have hopen : (s₁.slot w).account.closed = 0 := by simp [Slot.account, World.slot, hc]
      have hall := h₁.trans h₃
      exact ⟨_, _, hall.touch, hall.handle.trans hh, hall.evolves,
        hall.balanced (hbal₁.resend hopen), .inl ⟨rfl, rfl⟩⟩
    · have hall := h₁.trans h₃
      exact ⟨_, _, hall.touch, hall.handle.trans hh, hall.evolves, hall.balanced hbal₁.setSend,
        .inr ⟨rfl, rfl⟩⟩

end Server

end ServerStudy
