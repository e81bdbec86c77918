import ServerStudy.Server.Receiving
import ServerStudy.SessionManager.Disconnect

/-!
# ServerStudy.Server.Connecting

`Connect`, `Disconnect` and `Clear` of the session that a thread is at work on.

* `Triple.connect` — an accepted session is received on, or the thread may still
  do that;
* `Triple.disconnect` — whatever the thread was to go on with, it is to do no
  more; whoever changes the state calls `DisconnectEx`.
-/

namespace ServerStudy

namespace Server

open SessionManager

variable {N : Nat} {m : Terms} {w : Fin N} {h : UInt64} {ks : Multiset Stage} {s : World N}
  {execute : Nat → Prog (World N × Unit) (Socket N) Fault Bool}

/-! ## the state of a session -/

/-- `GetState` of a slot's own handle. -/
theorem wp_getState (hN : N < 2 ^ 32) {post : Option Nat → World N × Unit → Prop}
    (hpost : post (some (s.manager.state w)) (s, ())) :
    Prog.wp m.answers (Tolerated m)
      ((sessionPort (World.port N) execute w).getState (s.manager.handleAt w)) post (s, ()) := by
  have hstate : s.manager.sessionPool_.set.getState (s.manager.handleAt w) =
      some (s.manager.state w) := by
    rw [SparseSet.getState, isValid_handleAt hN, if_pos rfl, SessionManager.toNat_whoOf hN,
      FixedArray.get?_val]
    rfl
  refine Prog.wp_bind.mpr (wp_viewSession tolerated_managerOf fun _ => ?_)
  rw [← hstate] at hpost
  exact hpost

/-- `MoveToState` of a slot's own handle. -/
theorem wp_setState (hN : N < 2 ^ 32) (hrepr : ∃ b, SparseSet.Repr s.manager.sessionPool_.set b)
    (i : Fin SessionState.kCnt) {post : Bool → World N × Unit → Prop}
    (hpost : ∀ s', Touch w s s' { s.slot w with state := i } → post true (s', ())) :
    Prog.wp m.answers (Tolerated m) (do
      managerOf (World.port N) w
      SparsePool.moveToState (pool (World.port N)) (s.manager.handleAt w) i) post (s, ()) := by
  obtain ⟨b, hb⟩ := hrepr
  refine Prog.wp_bind.mpr (wp_viewSession tolerated_managerOf fun _ => ?_)
  have hb' : SparseSet.Repr ((World.port N).manager.get (s, ())).sessionPool_.set b := hb
  exact wp_moveToState hN hb' w i fun set hset => hpost _ (touch_withSet hb hset)

/-- A slot in another state. -/
theorem account_setState (x : Slot) (n : Nat) : Slot.account { x with state := n } =
    { x.account with
      idle := (decide (n = 0)).toNat, pending := (decide (n = 1)).toNat
      connected := (decide (n = 2)).toNat, closing := (decide (n = 3)).toNat } := rfl

/-- The handle of a session that a thread is at work on. -/
theorem handle_of_mem {F : Multiset Stage} {k : Stage} (hbal : Balanced m (s.slot w).account F)
    (hk : k ∈ F) (hkind : k.under = true) :
    (s.manager.session w).handle_ = s.manager.handleAt w :=
  of_decide_eq_true (Bool.toNat_eq_one.mp (hbal.named_of_mem hk hkind))

/-! ## connecting -/

/-- The section under `connectMtx_` of `Connect`. -/
theorem Triple.connectLocked (hN : N < 2 ^ 32) :
    Triple m w h (.own .accept ::ₘ ks) (Session.connectLocked (sessionPort (World.port N) execute w))
      (fun b ks' => b = true ∧ ks' = .reader ::ₘ ks ∨ b = false ∧ ks' = .own .accept ::ₘ ks) := by
  refine Triple.atomically (fun s F hh hrepr hbal => ?_) (pinned_cons (by decide) ks)
  have hhandle := handle_of_mem hbal (Multiset.mem_add.mpr (.inl (Multiset.mem_cons_self _ _))) rfl
  have hself : ((sessionPort (World.port N) execute w).self.get (s, ())).handle_ =
      s.manager.handleAt w := hhandle
  rw [Prog.bind_eq, Prog.wp_bind, Prog.wp_lens_read, hself]
  refine Prog.wp_bind.mpr (wp_getState hN ?_)
  split_ifs with hstate
  · exact ⟨_, _, Touch.refl w hrepr, hh, .stay rfl rfl, hbal, .inr ⟨rfl, rfl⟩⟩
  have hpending : s.manager.state w = 1 := by simpa [SessionState.toNat] using hstate
  refine Prog.wp_bind.mpr (wp_setState hN hrepr ⟨2, by decide⟩ fun s' ht => ?_)
  refine ⟨_, .reader ::ₘ ks, ht, hh, .connect hpending rfl rfl, ?_, .inl ⟨rfl, rfl⟩⟩
  have hone : (s.slot w).account.pending = 1 := by simp [Slot.account, World.slot, hpending]
  have hsum := hbal.state
  have haccount : Slot.account { s.slot w with state := 2 } =
      { (s.slot w).account with pending := 0, connected := 1 } := by
    rw [account_setState]
    apply Account.ext
    case idle => exact (by omega : (s.slot w).account.idle = 0).symm
    case closing => exact (by omega : (s.slot w).account.closing = 0).symm
    all_goals rfl
  rw [haccount]
  rw [Multiset.cons_add] at hbal ⊢
  exact hbal.connect hone

/-- `SendPacket` to the session that a thread is about to receive on. -/
theorem Triple.sendPacket (hN : N < 2 ^ 32) (packet : List UInt8) :
    Triple m w h (.reader ::ₘ ks)
      (Session.sendPacket (sessionPort (World.port N) execute w) packet) (Kind (.reader ::ₘ ks)) := by
  refine Triple.locked rfl (fun s F hh hrepr hbal => ?_) (pinned_cons (by decide) ks)
  rw [Multiset.cons_add] at hbal
  refine Prog.wp_mono (fun b x hx => ?_) (wp_sendPacket hN hrepr hbal
    (hbal.started_of_mem (Multiset.mem_cons_self _ _) rfl).2 (hbal.in_use_recv rfl rfl) packet)
  obtain ⟨v, hbec, hbal'⟩ := hx
  exact ⟨_, _, hbec.touch, hbec.handle.trans hh, hbec.evolves, hbec.balanced hbal', rfl⟩

/-- `Connect`. -/
theorem Triple.connect (hN : N < 2 ^ 32) :
    Triple m w h (.own .accept ::ₘ ks) (Session.connect (sessionPort (World.port N) execute w))
      (fun b ks' => b = true ∧ ks' = .ref ::ₘ ks ∨
        b = false ∧ (ks' = .own .accept ::ₘ ks ∨ ks' = .reader ::ₘ ks)) := by
  unfold Session.connect
  refine (Triple.connectLocked hN).bind fun b ks' hb => ?_
  rcases hb with ⟨rfl, rfl⟩ | ⟨rfl, rfl⟩
  swap
  · exact Triple.done (.inr ⟨rfl, .inl rfl⟩)
  refine (Triple.readHandle (pinned_cons (by decide) ks) (Multiset.mem_cons_self _ _) rfl).same_bind ?_
  refine (Triple.sendPacket hN _).kind_bind fun b => ?_
  refine Triple.ite (fun _ => Triple.done (.inr ⟨rfl, .inr rfl⟩)) fun _ => ?_
  refine (Triple.registerRead hN).bind fun b ks' hb => ?_
  rcases hb with ⟨rfl, rfl⟩ | ⟨rfl, rfl⟩
  · exact Triple.done (.inl ⟨rfl, rfl⟩)
  · exact Triple.done (.inr ⟨rfl, .inr rfl⟩)

/-- A question that changes nothing. -/
theorem Triple.setsockopt (hpin : Pinned ks) :
    Triple m w h ks ((World.port N).setsockopt w) (Kind ks) :=
  Triple.query (Lawful.keep fun _ _ _ hbal _ _ => ⟨rfl, ks, hbal, rfl⟩) hpin

/-- `HandleAccept`. -/
theorem Triple.handleAccept (hN : N < 2 ^ 32) (execute : Fin N → Nat → _) :
    Triple m w h (.own .accept ::ₘ ks)
      (Listener.handleAccept (SessionManager.deref (World.port N) ⟨true, h⟩)
        (session (World.port N) execute) (World.port N).setsockopt)
      (fun b ks' => b = true ∧ ks' = .ref ::ₘ ks ∨
        b = false ∧ (ks' = .own .accept ::ₘ ks ∨ ks' = .reader ::ₘ ks)) := by
  have hpin : Pinned (.own .accept ::ₘ ks) := pinned_cons (by decide) ks
  unfold Listener.handleAccept
  refine (Triple.deref hN hpin).same_bind ((Triple.setsockopt hpin).kind_bind fun r => ?_)
  refine Triple.ite (fun _ => Triple.done (.inr ⟨rfl, .inl rfl⟩)) fun _ => ?_
  refine (Triple.deref hN hpin).same_bind ((Triple.setsockopt hpin).kind_bind fun r => ?_)
  refine Triple.ite (fun _ => Triple.done (.inr ⟨rfl, .inl rfl⟩)) fun _ => ?_
  refine (Triple.deref hN hpin).same_bind ((Triple.connect hN).bind fun b ks' hb => ?_)
  rcases hb with ⟨rfl, rfl⟩ | ⟨rfl, hks⟩
  · exact Triple.done (.inl ⟨rfl, rfl⟩)
  · exact Triple.done (.inr ⟨rfl, hks⟩)

/-! ## disconnecting -/

/-- Who has business with a session finds it in use. -/
theorem state_of_ref {F : Multiset Stage} (hbal : Balanced m (s.slot w).account (.ref ::ₘ F)) :
    s.manager.state w = 1 ∨ s.manager.state w = 2 ∨ s.manager.state w = 3 := by
  have hsum := hbal.state
  have hidle := hbal.idle
  have hrefs := hbal.refs
  simp only [tally_cons, Stage.counts, Bool.toNat_true] at hrefs
  have hzero : (s.slot w).account.idle = 0 := by omega
  by_contra hno
  rw [not_or, not_or] at hno
  have h1 : (s.slot w).account.pending = 0 := by simp [Slot.account, World.slot, hno.1]
  have h2 : (s.slot w).account.connected = 0 := by simp [Slot.account, World.slot, hno.2.1]
  have h3 : (s.slot w).account.closing = 0 := by simp [Slot.account, World.slot, hno.2.2]
  omega

/-- The section under `connectMtx_` of `Disconnect`. -/
theorem Triple.disconnectLocked (hN : N < 2 ^ 32) {k : Stage} (hk : k.yields = true) :
    Triple m w h (.ref ::ₘ k ::ₘ ks)
      (Session.disconnectLocked (sessionPort (World.port N) execute w))
      (fun b ks' => (∃ result, b = some result ∧ ks' = .ref ::ₘ .ref ::ₘ ks) ∨
        b = none ∧ ks' = .closer ::ₘ .ref ::ₘ ks) := by
  refine Triple.atomically (fun s F hh hrepr hbal => ?_) (pinned_cons (by decide) _)
  have hkind : k.under = true := by
    cases k with
    | held op | own op => cases op <;> simp at hk ⊢
    | _ => simp at hk ⊢
  simp only [Multiset.cons_add] at hbal
  have hmem : k ∈ Stage.ref ::ₘ k ::ₘ (ks + F) :=
    Multiset.mem_cons_of_mem (Multiset.mem_cons_self _ _)
  have hself : ((sessionPort (World.port N) execute w).self.get (s, ())).handle_ =
      s.manager.handleAt w := handle_of_mem hbal hmem hkind
  have hstate := state_of_ref hbal
  have hsum := hbal.state
  rw [Prog.bind_eq, Prog.wp_bind, Prog.wp_lens_read, hself]
  refine Prog.wp_bind.mpr (wp_getState hN ?_)
  split_ifs with hopen hclosing
  · have h12 : s.manager.state w = 1 ∨ s.manager.state w = 2 := by
      simpa [SessionState.toNat] using hopen
    refine Prog.wp_bind.mpr (wp_setState hN hrepr ⟨3, by decide⟩ fun s' ht => ?_)
    refine ⟨_, .closer ::ₘ .ref ::ₘ ks, ht, hh, .disconnect h12 rfl rfl, ?_, .inr ⟨rfl, rfl⟩⟩
    have hone : (s.slot w).account.pending + (s.slot w).account.connected = 1 := by
      rcases h12 with h1 | h1 <;> simp [Slot.account, World.slot, h1]
    have haccount : Slot.account { s.slot w with state := 3 } =
        { (s.slot w).account with pending := 0, connected := 0, closing := 1 } := by
      rw [account_setState]
      apply Account.ext
      case idle => exact (by omega : (s.slot w).account.idle = 0).symm
      all_goals rfl
    have hclose := hbal.close hone (Multiset.mem_cons_self _ _) hkind
    rw [Multiset.cons_swap] at hclose
    have hyield := hclose.yield hk rfl
    rw [haccount]
    simp only [Multiset.cons_add]
    rw [Multiset.cons_swap]
    exact hyield
  · have h3 : s.manager.state w = 3 := by simpa [SessionState.toNat] using hclosing
    have hone : (s.slot w).account.closing = 1 := by simp [Slot.account, World.slot, h3]
    rw [Multiset.cons_swap] at hbal
    refine ⟨_, .ref ::ₘ .ref ::ₘ ks, Touch.refl w hrepr, hh, .stay rfl rfl, ?_, .inl ⟨_, rfl, rfl⟩⟩
    simp only [Multiset.cons_add]
    exact hbal.yield hk hone
  · simp [SessionState.toNat] at hopen hclosing
    omega

/-- `disconnectOv_.sessionPtr_ = GetSession(handle)`, which is there. -/
theorem Triple.armDisconnect (hN : N < 2 ^ 32) :
    Triple m w h (.typedDisconnect ::ₘ ks)
      ((sessionPort (World.port N) execute w).assignSessionPtr .disconnect h)
      (Same () (.armedDisconnect ::ₘ ks)) := by
  refine (Triple.managerOf (pinned_cons (by decide) ks)).same_bind ?_
  refine Triple.same_bind (Triple.getSession hN (pinned_cons (by decide) ks)
    (refs_pos_of_counts rfl) ⟨rfl, rfl⟩ fun v F hbal he => ?_) ?_
  · have hentry := hbal.closersEntry
    simp only [Multiset.cons_add, tally_cons, Stage.closes, Bool.toNat_true] at hentry
    omega
  refine Triple.assignCell (pinned_cons (by decide) _) (.inl rfl) (fun v F hbal => ?_)
    fun v F hbal => ?_
  · have hfree := hbal.discFree
    simp only [Multiset.cons_add, tally_cons, Stage.needsNoDisconnect, Bool.toNat_true,
      Bool.toNat_false] at hfree
    change v.disc = 0
    omega
  · rw [live_self]
    simp only [Multiset.cons_add] at hbal ⊢
    exact hbal.armDisconnect

/-- `DisconnectEx` posts a disconnect, or nothing. -/
theorem wp_disconnectEx {post : BoolResult → World N × Unit → Prop}
    (hposted : ∀ r : BoolResult, r.posted = true →
      post r ((s.countDisconnect w).post w .disconnect, ()))
    (hfailed : ∀ r : BoolResult, r.posted = false → m.prompt = false →
      post r (s.countDisconnect w, ())) :
    Prog.wp m.answers (Tolerated m) ((World.port N).disconnectEx w) post (s, ()) := by
  intro r hr
  rw [Prog.wp_bind, Prog.wp_done, Prog.bind_eq, Prog.wp_bind, World.change, Prog.wp_modify]
  cases hr' : r.posted with
  | false =>
      have hprompt : m.prompt = false := by
        by_contra hp
        rw [hr.2 (by simpa using hp)] at hr'
        cases hr'
      exact hfailed r hr' hprompt
  | true => exact hposted r hr'

/-- It is called once. -/
theorem Triple.disconnectEx :
    Triple m w h (.armedDisconnect ::ₘ ks) ((World.port N).disconnectEx w) (Kind (.ref ::ₘ ks)) := by
  refine Triple.locked rfl (fun s F hh hrepr hbal => ?_) (pinned_cons (by decide) ks)
  rw [Multiset.cons_add] at hbal
  have hcount := touch_countDisconnect (w := w) hrepr
  refine wp_disconnectEx (fun r hr => ?_) fun r hr hprompt => ?_
  · have hpost := hcount.trans (touch_setPosted (w := w) hcount.repr .disconnect
      (s.posted w .disconnect + 1))
    rw [hcount.slot] at hpost
    refine ⟨_, .ref ::ₘ ks, hpost, hh, .stay rfl rfl, ?_, rfl⟩
    rw [Multiset.cons_add]
    have hbal' := hbal.postDisconnect
    simpa [Slot.account, World.slot, World.countDisconnect] using hbal'
  · refine ⟨_, .ref ::ₘ ks, hcount, hh, .stay rfl rfl, ?_, rfl⟩
    rw [Multiset.cons_add]
    exact hbal.callDisconnect hprompt

/-- `Disconnect`. -/
theorem Triple.disconnect (hN : N < 2 ^ 32) {k : Stage} (hk : k.yields = true) :
    Triple m w h (.ref ::ₘ k ::ₘ ks) (Session.disconnect (sessionPort (World.port N) execute w))
      (Kind (.ref ::ₘ .ref ::ₘ ks)) := by
  unfold Session.disconnect
  refine (Triple.disconnectLocked hN hk).bind fun b ks' hb => ?_
  rcases hb with ⟨result, rfl, rfl⟩ | ⟨rfl, rfl⟩
  · exact Triple.done rfl
  refine Triple.same_bind (K := .typedDisconnect ::ₘ .ref ::ₘ ks) (b := ()) (Triple.modifySession
    (pinned_cons (by decide) _) fun x F _ hbal => ?_) ?_
  · rw [Multiset.cons_add] at hbal ⊢
    exact hbal.setDisconnect
  refine (Triple.readHandle (pinned_cons (by decide) _) (Multiset.mem_cons_self _ _) rfl).same_bind ?_
  refine (Triple.armDisconnect hN).same_bind ?_
  refine Triple.kind_bind (Triple.disconnectEx.kind_bind fun r => Triple.done rfl) fun r => ?_
  exact Triple.ite (fun _ => Triple.ite (fun _ => Triple.done rfl) fun _ => Triple.done rfl)
    fun _ => Triple.done rfl

/-! ## clearing -/

/-- `Reset` of the pointer in the array, by whoever has finished a disconnect. -/
theorem Triple.resetEntry (hN : N < 2 ^ 32) :
    Triple m w h (.own .disconnect ::ₘ ks)
      (reset (World.port N) (ptrLens (World.port N) w)) (Same () (.ref ::ₘ ks)) := by
  have hpin : Pinned (.own .disconnect ::ₘ ks) := pinned_cons (by decide) ks
  have hentry : ∀ v F, Balanced m v (.own .disconnect ::ₘ ks + F) → v.entry = 1 ∧ 1 < v.refs :=
    fun v F hbal => by
      have hone := hbal.entryOne
      have hclosers := hbal.closersEntry
      have hrefs := hbal.refs
      simp only [Multiset.cons_add, tally_cons, Stage.closes, Stage.counts, Bool.toNat_true]
        at hclosers hrefs
      omega
  refine Triple.same_bind (K := .ref ::ₘ ks) (b := false) (Triple.same_bind (K := .own .disconnect ::ₘ ks)
    (b := ⟨true, h⟩) (Triple.read hpin fun s F hh hbal => ?_) ?_) (Triple.done ⟨rfl, rfl⟩)
  · subst hh
    exact ⟨Slot.live_entry (hentry _ _ hbal).1, rfl⟩
  refine (Triple.isValid hN hpin).same_bind ?_
  refine Triple.same_bind (K := .clearing ::ₘ ks)
    (Triple.releaseRef_many hN hpin fun v F hbal => ?_) ?_
  · refine ⟨(hentry v F hbal).2, ?_⟩
    rw [Multiset.cons_add] at hbal ⊢
    exact hbal.discount
  · refine Triple.same_bind (K := .ref ::ₘ ks) (b := ()) (Triple.update (fun s F hh hrepr hbal => ?_)
      (pinned_cons (by decide) ks)) (Triple.done ⟨rfl, rfl⟩)
    have haccount := Slot.account_setEntry (x := s.slot w) (p := .null) hbal.stray (stray_of_pool rfl)
    rw [live_of_pool rfl] at haccount
    refine ⟨_, .ref ::ₘ ks, touch_setPtr hrepr .null, hh, .stay rfl rfl, ?_, rfl, rfl⟩
    rw [Multiset.cons_add] at hbal ⊢
    exact Eq.mpr (congrArg (fun v => Balanced _ v _) haccount) hbal.clear

/-- `Clear`, when a disconnect is over. -/
theorem Triple.clear (hN : N < 2 ^ 32) :
    Triple m w h (.own .disconnect ::ₘ ks)
      (Session.clear (sessionPort (World.port N) execute w)) (Kind (.ref ::ₘ ks)) := by
  have hpin : Pinned (.own .disconnect ::ₘ ks) := pinned_cons (by decide) ks
  refine (Triple.readHandle hpin (Multiset.mem_cons_self _ _) rfl).same_bind ?_
  refine Triple.same_bind ((Triple.managerOf hpin).same_bind ((Triple.isValid hN hpin).same_bind
    ((Triple.slot hN hpin).same_bind (Triple.resetEntry hN)))) (Triple.done rfl)

end Server

end ServerStudy
