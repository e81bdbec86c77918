import ServerStudy.Server.Connecting
import ServerStudy.Server.Relaying

/-!
# ServerStudy.Server.Completing

A turn of `WorkerThread`: the completion that is delivered gives a thread its
business with a slot, and none of it is left at the end.

* `Balanced.setUp_of_dequeued` — what the completion of an accept finds;
* `Triple.dispatchBy` — the `switch` of `Dispatch`;
* `Triple.dispatch`, `Triple.handleError` — a completion that succeeded, or not;
* `safe_complete` — the whole turn.
-/

namespace ServerStudy

namespace Server

open SessionManager

variable {N : Nat} {m : Terms} {w : Fin N} {h : UInt64} {ks : Multiset Stage} {op : SocketOp}

/-! ## the operation of a completion -/

/-- The `ioType_` of an operation. -/
def SocketOp.ioType : SocketOp → IoType
  | .accept => .kAccept
  | .recv => .kRecv
  | .send => .kSend
  | .disconnect => .kDisconnect

/-- Whoever handles a completion finds the pointer in the `OverlappedEx`. -/
theorem Balanced.cell_held {v : Account} {F : Multiset Stage}
    (hbal : Balanced m v (.held op ::ₘ F)) : v.cell op.ov = 1 := by
  have hread := hbal.readCell
  have hfree := hbal.readFree
  have hwrite := hbal.writeCell
  have hsenders := hbal.senders
  have hsending := hbal.sending
  have hle := tallies_le F
  have hdisc := hbal.discCell
  have hdiscFree := hbal.discFree
  cases op <;> simp [SocketOp.ov, Account.cell] at * <;> omega

theorem of_one_le {p : Prop} [Decidable p] (hp : 1 ≤ (decide p).toNat) : p := by
  by_contra hno
  simp [hno] at hp

/-- And `ioType_` says which operation it is, also when the pointer is gone. -/
theorem Balanced.ioType_of_mem {x : Slot} {F : Multiset Stage} (hbal : Balanced m x.account F)
    (hmem : .held op ∈ F ∨ .own op ∈ F) : (x.session.ov op.ov).ioType_ = op.ioType := by
  have hpos : ∀ {p : Stage → Bool}, p (.held op) = true → p (.own op) = true → 0 < tally F p :=
    fun hheld hown => hmem.elim (fun hk => tally_pos hk hheld) fun hk => tally_pos hk hown
  cases op with
  | accept =>
      have hp := hpos (p := Stage.typesAccept) rfl rfl
      have hio := hbal.ioAccept
      exact of_one_le (show 1 ≤ x.account.ioAccept by omega)
  | recv =>
      have hp := hpos (p := Stage.typesRecv) rfl rfl
      have hio := hbal.ioRecv
      exact of_one_le (show 1 ≤ x.account.ioRecv by omega)
  | send =>
      have hp := hpos (p := Stage.sends) rfl rfl
      have hio := hbal.ioSend
      exact of_one_le (show 1 ≤ x.account.ioSend by omega)
  | disconnect =>
      have hp := hpos (p := Stage.typesDisconnect) rfl rfl
      have hio := hbal.ioDisconnect
      exact of_one_le (show 1 ≤ x.account.ioDisconnect by omega)

/-- The `OverlappedEx` loses its pointer, whichever it is. -/
theorem Balanced.take {v : Account} {F : Multiset Stage} (hbal : Balanced m v (.held op ::ₘ F)) :
    Balanced m (v.setCell 0 op.ov) (.own op ::ₘ F) := by
  cases op with
  | accept => exact hbal.takeAccept
  | recv => exact hbal.takeRecv
  | send => exact hbal.takeSend
  | disconnect => exact hbal.takeDisconnect

/-- A slot whose accept was dequeued, after `SetListener`, until its last pointer is dropped. -/
theorem Balanced.setUp_of_dequeued {s : World N} {F : Multiset Stage}
    (hbal : Balanced m (s.slot w).account F) (hp : m.patient = true)
    (hdequeued : 1 ≤ (s.slot w).account.dequeued) (hrefs : 0 < (s.slot w).account.refs) :
    s.manager.state w ≠ 0 ∧ SetUp (s.manager.session w) (s.manager.handleAt w) (s.listening w) := by
  have hone : m.patient.toNat = 1 := Bool.toNat_eq_one.mpr hp
  have hle := tallies_le F
  have hstate := hbal.state
  have hused := hbal.dequeued
  have hpatient := hbal.patient
  have hlistening := hbal.listening
  have hlistener := hbal.listener
  have hmanaged := hbal.managed
  have hnamed := hbal.handleUsed
  have hreleased := hbal.released
  have hset : ∀ {b : Bool}, 1 ≤ b.toNat → b = true := fun {b} h =>
    Bool.toNat_eq_one.mp (le_antisymm (Bool.toNat_le b) h)
  refine ⟨fun h0 => ?_, hset ?_, of_one_le (show 1 ≤ (s.slot w).account.named by omega), hset ?_,
    of_one_le (show 1 ≤ (s.slot w).account.listening by omega)⟩
  · have hidle : (s.slot w).account.idle = 1 := by simp [Slot.account, World.slot, h0]
    omega
  · exact show 1 ≤ (s.slot w).account.managed by omega
  · exact show 1 ≤ (s.slot w).account.listener by omega

/-- Whoever handles the completion of an accept knows that it was dequeued, and has a pointer. -/
theorem Balanced.dequeued_of_mem {v : Account} {F : Multiset Stage} (hbal : Balanced m v F)
    (hmem : .held .accept ∈ F ∨ .own .accept ∈ F) : 1 ≤ v.dequeued ∧ 0 < v.refs := by
  have hpos : 0 < tally F Stage.accepts :=
    hmem.elim (fun hk => tally_pos hk rfl) fun hk => tally_pos hk rfl
  have htaken := hbal.taken
  have hrefs := hbal.refs
  have hcell := hbal.readCell
  refine ⟨by omega, ?_⟩
  rcases hmem with hk | hk
  · have hneeds := tally_pos (p := Stage.needsRead) hk rfl
    omega
  · have hcounts := tally_pos (p := Stage.counts) hk rfl
    omega

/-! ## delivery -/

/-- A completion is delivered, whichever it is. -/
theorem touch_deliver {s : World N} (op : SocketOp)
    (hrepr : ∃ b, SparseSet.Repr s.manager.sessionPool_.set b) (c : Completion)
    (hpatient : op = .accept → m.patient = true → s.listening w = s.manager.handleAt w) :
    ∃ x, Touch w s (s.deliver w op c) x ∧ x.handle = s.manager.handleAt w ∧
      x.state = s.manager.state w ∧ ∀ F, 0 < s.posted w op → Balanced m (s.slot w).account F →
        Balanced m x.account (.held op ::ₘ F) := by
  have hposted := touch_setPosted (w := w) hrepr op (s.posted w op - 1)
  cases op with
  | accept =>
      have hdequeued := hposted.trans (touch_dequeued (w := w) hposted.repr)
      rw [hposted.slot] at hdequeued
      refine ⟨_, hdequeued, rfl, rfl, fun F hpos hbal => ?_⟩
      have hlistening : m.patient.toNat ≤ (s.slot w).account.listening := by
        cases hp : m.patient with
        | false => exact Nat.zero_le _
        | true => exact (Bool.toNat_eq_one.mpr (decide_eq_true (hpatient rfl hp))).ge
      simpa [Slot.account, World.slot] using hbal.deliverAccept hpos hlistening
  | recv =>
      have hbuffer := hposted.trans (touch_setSession hposted.repr
        { s.manager.session w with readOv_.buffer_ := c.buffer_ })
      rw [hposted.slot] at hbuffer
      refine ⟨_, hbuffer, rfl, rfl, fun F hpos hbal => ?_⟩
      have hcount : Balanced m (Slot.account { s.slot w with
          posted := Function.update (s.posted w) .recv (s.posted w .recv - 1) })
          (.held .recv ::ₘ F) := by
        simpa [Slot.account, World.slot] using hbal.deliverRecv hpos
      exact hcount
  | send =>
      refine ⟨_, hposted, rfl, rfl, fun F hpos hbal => ?_⟩
      simpa [Slot.account, World.slot] using hbal.deliverSend hpos
  | disconnect =>
      have hclose := hposted.trans (touch_setClosed (w := w) hposted.repr true)
      rw [hposted.slot] at hclose
      refine ⟨_, hclose, rfl, rfl, fun F hpos hbal => ?_⟩
      simpa [Slot.account, World.slot] using hbal.deliverDisconnect hpos

/-- `GetQueuedCompletionStatus` gives a thread its business with the slot. -/
theorem safe_dequeue {S : Multiset (Token N)} (hS : Past S) :
    Safe (discipline N m) m.answers (About w) (World.dequeue w op)
      (fun c _ r => (op = .disconnect → m.prompt = true → c.result = true) ∧
        ∃ h, r = tokensAt w h (.held op ::ₘ 0) + S) () S := by
  have hab : About w S := fun t ht hne => absurd (hS t ht) hne
  refine Safe.atomically hab fun s F _ hk c hc _ => ?_
  have hzero : tokensAt w (s.manager.handleAt w) 0 + (S + F) = S + F := by simp [tokensAt]
  have hnone : Kept m s (tokensAt w (s.manager.handleAt w) 0 + (S + F)) := hzero.symm ▸ hk
  have hlistening : op = .accept → m.patient = true →
      s.listening w = s.manager.handleAt w := fun hop hp => by
    subst hop
    exact hc.2 hp
  obtain ⟨x, ht, hhandle, hstate, hbal⟩ := touch_deliver (m := m) op hk.repr c hlistening
  have hkept : Kept m (s.deliver w op c)
      (tokensAt w (s.manager.handleAt w) (.held op ::ₘ 0) + (S + F)) := by
    refine Kept.touch hnone ht rfl hhandle ?_
    rw [Multiset.cons_add]
    refine hbal _ hc.1 ?_
    rw [zero_add]
    exact hk.balanced w
  refine ⟨fun v => ?_, tokensAt w (s.manager.handleAt w) (.held op ::ₘ 0) + S, ?_,
    about_tokensAt hS, fun hop hp => ?_, _, rfl⟩
  · by_cases hv : v = w
    · subst hv
      exact .stay ((congrArg Slot.state ht.slot).trans hstate)
        ((congrArg Slot.handle ht.slot).trans hhandle)
    · exact .stay (congrArg Slot.state (ht.other v hv)) (congrArg Slot.handle (ht.other v hv))
  · rw [add_assoc]
    exact hkept
  · subst hop
    exact hc.2 hp

/-! ## a completion that succeeded -/

variable (hN : N < 2 ^ 32)
include hN

/-- `Disconnect`, by a thread that cannot go on. -/
theorem Triple.giveUp {α : Type} {k : Stage} (hk : k.yields = true) (execute : Fin N → Nat → _)
    {f : Bool → Prog (World N × Unit) (Socket N) Fault α} {Q : α → Multiset Stage → Prop}
    (hf : ∀ b, Triple m w h (.ref ::ₘ .ref ::ₘ ks) (f b) Q) :
    Triple m w h (k ::ₘ .ref ::ₘ ks)
      ((SessionManager.deref (World.port N) ⟨true, h⟩).bind fun v =>
        (Session.disconnect (session (World.port N) execute v)).bind f) Q := by
  rw [Multiset.cons_swap]
  exact (Triple.deref hN (pinned_cons (by decide) _)).same_bind
    ((Triple.disconnect hN hk).kind_bind hf)

/-- `OnWrite`. -/
theorem Triple.onWrite {execute : Nat → _} (bytesTransferred : Nat) :
    Triple m w h (.own .send ::ₘ ks)
      (Session.onWrite (sessionPort (World.port N) execute w) bytesTransferred)
      (fun b ks' => b = true ∧ ks' = .ref ::ₘ ks ∨ b = false ∧ ks' = .own .send ::ₘ ks) :=
  Triple.locked rfl (lawful_onWrite hN bytesTransferred) (pinned_cons (by decide) ks)

/-- `HandleIO` of a receive or a send. -/
theorem Triple.handleIO (hop : op = .recv ∨ op = .send) (bytesTransferred : Nat) :
    Triple m w h (.own op ::ₘ ks)
      (Session.handleIO (session (World.port N) (World.execute m.whole) w) op.ioType
        bytesTransferred)
      (fun b ks' => b = true ∧ ks' = .ref ::ₘ ks ∨
        b = false ∧ ∃ k, k.yields = true ∧ ks' = k ::ₘ ks) := by
  rcases hop with rfl | rfl
  · refine (Triple.onRead hN (fun off => Triple.execute hN (pinned_cons (by decide) _) off)
      bytesTransferred).mono fun b ks' hb => ?_
    rcases hb with hb | ⟨rfl, rfl | rfl⟩
    · exact .inl hb
    · exact .inr ⟨rfl, _, rfl, rfl⟩
    · exact .inr ⟨rfl, _, rfl, rfl⟩
  · refine (Triple.onWrite hN bytesTransferred).mono fun b ks' hb => ?_
    rcases hb with hb | ⟨rfl, rfl⟩
    · exact .inl hb
    · exact .inr ⟨rfl, _, rfl, rfl⟩

/-- `GetListener()->`, of the session of such a completion. -/
theorem Triple.getListener (hmem : .held .accept ∈ ks ∨ .own .accept ∈ ks) :
    Triple m w h ks (Server.getListener (World.port N) ⟨true, h⟩) (Kind ks) := by
  have hpin : Pinned ks :=
    hmem.elim (fun hk => ⟨_, hk, by decide⟩) fun hk => ⟨_, hk, by decide⟩
  refine (Triple.deref hN hpin).same_bind (Triple.viewSession hpin (fun s F e hbal he => ?_)
    fun _ => rfl)
  split_ifs at he with hlistener
  cases he
  have hdequeued := hbal.dequeued_of_mem (hmem.imp (fun hk => Multiset.mem_add.mpr (.inl hk))
    fun hk => Multiset.mem_add.mpr (.inl hk))
  exact ⟨by decide, fun hp =>
    absurd (hbal.setUp_of_dequeued hp hdequeued.1 hdequeued.2).2.listener_ hlistener⟩

omit hN in
/-- What a completion is handled with is written down. -/
theorem Triple.handle (hmem : .held .accept ∈ ks) :
    Triple m w h ks (World.change fun s => s.handle w) (Kind ks) :=
  Triple.change fun s F hk => by
    have hdequeued := (hk.at).dequeued_of_mem (.inl (Multiset.mem_add.mpr (.inl hmem)))
    refine ⟨fun v => .stay rfl rfl, hk.repr, hk.current, hk.balanced, hk.created, fun hp x hx => ?_⟩
    rcases List.mem_cons.mp hx with rfl | hx
    · exact ((hk.at).setUp_of_dequeued hp hdequeued.1 hdequeued.2).2
    · exact hk.handled hp x hx

/-- The `switch` of `Dispatch`. -/
theorem Triple.dispatchBy (bytesTransferred : Nat) :
    Triple m w h (.own op ::ₘ .ref ::ₘ ks)
      (IocpCore.dispatchBy (SessionManager.deref (World.port N) ⟨true, h⟩)
        (session (World.port N) (World.execute m.whole))
        (do
          Server.getListener (World.port N) ⟨true, h⟩
          Listener.handleAccept (SessionManager.deref (World.port N) ⟨true, h⟩)
            (session (World.port N) (World.execute m.whole)) (World.port N).setsockopt)
        op.ioType bytesTransferred) (Kind (.ref ::ₘ .ref ::ₘ ks)) := by
  have hpin : Pinned (.own op ::ₘ .ref ::ₘ ks) := pinned_cons (by simp) _
  have hderef := Triple.deref (m := m) (h := h) (w := w) hN hpin
  cases op with
  | accept =>
      refine ((Triple.getListener hN (.inr (Multiset.mem_cons_self _ _))).kind_bind fun _ =>
        Triple.handleAccept hN _).bind fun b ks' hb => ?_
      rcases hb with ⟨rfl, rfl⟩ | ⟨rfl, rfl | rfl⟩
      · exact Triple.done rfl
      · exact Triple.giveUp hN rfl _ fun _ => Triple.done rfl
      · exact Triple.giveUp hN rfl _ fun _ => Triple.done rfl
  | disconnect =>
      exact hderef.same_bind ((Triple.clear hN).kind_bind fun _ => Triple.done rfl)
  | recv | send =>
      refine Triple.ite (fun _ => Triple.giveUp hN rfl _ fun _ => Triple.done rfl) fun _ => ?_
      refine hderef.same_bind ((Triple.handleIO hN (by simp) bytesTransferred).bind fun b ks' hb => ?_)
      rcases hb with ⟨rfl, rfl⟩ | ⟨rfl, k, hk, rfl⟩
      · exact Triple.done rfl
      · exact Triple.giveUp hN hk _ fun _ => Triple.done rfl

/-! ## a turn -/

/-- A copy of the pointer in the `OverlappedEx`. -/
theorem Triple.copyHeld :
    Triple m w h (.held op ::ₘ ks) (copyOf (World.port N) (ovPtrLens (World.port N) w op.ov))
      (Same ⟨true, h⟩ (.ref ::ₘ .held op ::ₘ ks)) :=
  Triple.copyCell hN (pinned_cons (by simp) ks) fun v F hbal => by
    rw [Multiset.cons_add] at hbal
    exact hbal.cell_held

/-- It is reset. -/
theorem Triple.resetHeld :
    Triple m w h (.ref ::ₘ .held op ::ₘ ks)
      (reset (World.port N) (ovPtrLens (World.port N) w op.ov)) (Same () (.own op ::ₘ ks)) := by
  refine Triple.resetCell hN (by simp) (fun v F hbal => hbal.cell_held) fun v F hbal => ?_
  rw [Multiset.cons_add] at hbal ⊢
  exact hbal.take

omit hN in
/-- `ioType_` of the completion's `OverlappedEx`. -/
theorem Triple.readIoType {ks' : Multiset Stage} (hmem : .held op ∈ ks ∨ .own op ∈ ks)
    (hks : ∀ v F, Balanced m v (ks + F) → Balanced m v (ks' + F)) :
    Triple m w h ks ((ovLens (World.port N) w op.ov).read OverlappedEx.ioType_)
      (Same op.ioType ks') :=
  Triple.update (Lawful.keep fun s F _ hbal => ⟨rfl, ks', hks _ F hbal,
    Balanced.ioType_of_mem (x := s.slot w) hbal (hmem.imp (fun hk => Multiset.mem_add.mpr (.inl hk))
      fun hk => Multiset.mem_add.mpr (.inl hk)), rfl⟩)
    (hmem.elim (fun hk => ⟨_, hk, by simp⟩) fun hk => ⟨_, hk, by simp⟩)

/-- `Dispatch`. -/
theorem Triple.dispatch (bytesTransferred : Nat) :
    Triple m w h (.held op ::ₘ .ref ::ₘ ks)
      (Server.dispatch (World.port N) (World.execute m.whole) w op.ov bytesTransferred)
      (Kind (.ref ::ₘ ks)) := by
  refine (Triple.copyHeld hN).same_bind ((Triple.resetHeld hN).same_bind ?_)
  refine (Triple.readIoType (.inr (Multiset.mem_cons_self _ _)) fun _ _ hbal => hbal).same_bind ?_
  exact (Triple.dispatchBy hN bytesTransferred).kind_bind fun _ => Triple.destroy hN rfl

/-- `HandleError`. -/
theorem Triple.handleError (hprompt : op = .disconnect → m.prompt = false) :
    Triple m w h (.held op ::ₘ .ref ::ₘ ks)
      (Server.handleError (World.port N) (World.execute m.whole) w op.ov) (Kind (.ref ::ₘ ks)) := by
  have hheld : Stage.held op ∈ Stage.ref ::ₘ .held op ::ₘ .ref ::ₘ ks := by simp
  refine (Triple.copyHeld hN).same_bind ?_
  cases hop : decide (op = .disconnect) with
  | true =>
      obtain rfl := of_decide_eq_true hop
      -- the pointer stays in `disconnectOv_`
      refine Triple.same_bind (K := .own .disconnect ::ₘ .ref ::ₘ ks)
        (Triple.readIoType (.inl hheld) fun v F hbal => ?_) ?_
      · simp only [Multiset.cons_add] at hbal ⊢
        exact hbal.keepDisconnect (hprompt rfl)
      · exact (Triple.deref hN (pinned_cons (by simp) _)).same_bind
          ((Triple.clear hN).kind_bind fun _ => Triple.destroy hN rfl)
  | false =>
      have hne : op.ioType ≠ .kDisconnect := by
        have hop' := of_decide_eq_false hop
        cases op <;> simp [SocketOp.ioType] at hop' ⊢
      have hk : (Stage.own op).yields = true := by
        have hop' := of_decide_eq_false hop
        cases op <;> simp at hop' ⊢
      refine (Triple.readIoType (.inl hheld) fun _ _ hbal => hbal).same_bind ?_
      rw [if_neg hne]
      exact (Triple.resetHeld hN).same_bind
        (Triple.giveUp hN hk _ fun _ => Triple.destroy hN rfl)

/-- `WorkerThread`, from the completion on. -/
theorem Triple.workerThread {result : Bool} (bytesTransferred : Nat)
    (hprompt : op = .disconnect → m.prompt = true → result = true) :
    Triple m w h (.held op ::ₘ 0)
      (Server.workerThread (World.port N) (World.execute m.whole)
        (fun w => World.change fun s => s.handle w) w op.ov result bytesTransferred) (Kind 0) := by
  have hheld : Stage.held op ∈ Stage.ref ::ₘ .held op ::ₘ 0 := by simp
  refine (Triple.copyHeld hN).same_bind ?_
  refine (Triple.readIoType (.inl hheld) fun _ _ hbal => hbal).same_bind ?_
  have hturn : Triple m w h (.ref ::ₘ .held op ::ₘ 0) (do
      if result then
        Server.dispatch (World.port N) (World.execute m.whole) w op.ov bytesTransferred
      else
        Server.handleError (World.port N) (World.execute m.whole) w op.ov
      SessionManager.destroy (World.port N) ⟨true, h⟩) (Kind 0) := by
    rw [Multiset.cons_swap]
    refine Triple.ite (fun _ => ?_) fun hfail => ?_
    · exact (Triple.dispatch hN bytesTransferred).kind_bind fun _ => Triple.destroy hN rfl
    · refine (Triple.handleError hN fun hop => ?_).kind_bind fun _ => Triple.destroy hN rfl
      by_contra hp
      exact hfail (hprompt hop (by simpa using hp))
  refine Triple.ite (fun haccept => ?_) fun _ => hturn
  have hop : op = .accept := by cases op <;> simp [SocketOp.ioType] at haccept ⊢
  subst hop
  exact (Triple.getListener hN (.inl hheld)).kind_bind fun _ =>
    (Triple.handle hheld).kind_bind fun _ => hturn

/-- A turn, by a thread with nothing to do. -/
theorem safe_complete {S : Multiset (Token N)} (hS : Past S) :
    Safe (discipline N m) m.answers (About w) ((World.Op.complete w op).prog m.whole)
      (fun _ _ r => Past r) () S := by
  refine Safe.bind (Safe.mono (fun _ hr => hr) (fun c _ r hr => ?_) (safe_dequeue hS))
  obtain ⟨hprompt, h, rfl⟩ := hr
  refine Safe.mono (fun _ hr => hr) (fun _ _ r hr => ?_)
    (Triple.workerThread hN c.bytesTransferred hprompt S hS)
  obtain ⟨ks', S', hS', rfl, rfl⟩ := hr
  simpa [tokensAt] using hS'

end Server

end ServerStudy
