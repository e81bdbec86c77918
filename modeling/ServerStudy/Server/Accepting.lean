import ServerStudy.Server.Connecting

/-!
# ServerStudy.Server.Accepting

A turn of `PostAccept`: a slot is acquired, its session set up and listed, and
its socket handed to `AcceptEx`.

* `safe_createSession` — the slot is nobody else's until then;
* `safe_postAccept` — the whole turn.
-/

namespace ServerStudy

namespace Server

open SessionManager

variable {N : Nat} {m : Terms} {w : Fin N} {h : UInt64} {ks : Multiset Stage} {s : World N}
  {R S : Multiset (Token N)}

/-! ## the session -/

/-- A slot is popped, and is nobody else's. -/
theorem Kept.pop (hk : Kept m s R) {b : Blocks N SessionState.kCnt}
    (hb : SparseSet.Repr s.manager.sessionPool_.set b) {set : SparseSet N SessionState.kCnt}
    (hidle : s.manager.state w = 0)
    (hset : SparseSet.Leads set (Function.update b.block w ⟨SessionState.kPending.toNat, by decide⟩)
      s.manager.sessionPool_.set.gen) :
    (∀ v, Evolves (s.slot v) ((s.setManager (s.manager.withSet set)).slot v)) ∧
      Kept m (s.setManager (s.manager.withSet set))
        (tokensAt w (s.manager.handleAt w) (.popped ::ₘ 0) + R) := by
  have ht := touch_withSet hb hset
  have hbal := hk.balanced w
  have hsum := hbal.state
  have hone : (s.slot w).account.idle = 1 := by simp [Slot.account, World.slot, hidle]
  have haccount : Slot.account { s.slot w with state := 1 } =
      { (s.slot w).account with idle := 0, pending := 1 } := by
    apply Account.ext
    case connected => exact (by omega : (s.slot w).account.connected = 0).symm
    case closing => exact (by omega : (s.slot w).account.closing = 0).symm
    all_goals rfl
  have hnone : Kept m s (tokensAt w (s.manager.handleAt w) 0 + R) := by simpa [tokensAt] using hk
  refine ⟨fun v => ?_, Kept.touch hnone ht rfl rfl ?_⟩
  · by_cases hv : v = w
    · rw [hv, ht.slot]
      exact .acquire hidle rfl rfl
    · rw [ht.other v hv]
      exact .stay rfl rfl
  · change Balanced m (Slot.account { s.slot w with state := 1 }) _
    rw [haccount, Multiset.cons_add, zero_add]
    exact hbal.pop hone

/-- What a thread has when it is given a pointer: nothing, or the first one. -/
def Acquires (S : Multiset (Token N)) (ks : Multiset Stage) (p : SharedPoolPtr)
    (r : Multiset (Token N)) : Prop :=
  p = .null ∧ r = S ∨
    ∃ w h, p = ⟨true, h⟩ ∧ h ≠ kInvalidHandle ∧ ∃ S', Past S' ∧ r = tokensAt w h ks + S'

/-- The section of `Acquire`. -/
theorem safe_pop (hN : N < 2 ^ 32) (hS : Past S) :
    Safe (discipline N m) m.answers (fun _ => True)
      ((pool (World.port N)).pool.update (SparsePool.popLocked SessionState.kPending.toNat))
      (fun x _ r => Acquires S (.popped ::ₘ 0) ⟨x.2, x.1⟩ r) () S := by
  refine Safe.action trivial fun s F _ hk => ?_
  obtain ⟨b, hb⟩ := Kept.repr hk
  change Prog.wp _ _ ((pool (World.port N)).pool.update _) _ _
  rcases popLocked_cases hN hb ⟨SessionState.kPending.toNat, by decide⟩ with
    ⟨w, set, hidle, hset, hlocked⟩ | hlocked
  · rw [Prog.wp_lens_update hlocked]
    obtain ⟨hev, hk'⟩ := Kept.pop hk hb hidle hset
    refine fun _ => ⟨hev, tokensAt w (s.manager.handleAt w) (.popped ::ₘ 0) + S, ?_, trivial,
      .inr ⟨w, _, rfl, handleAt_ne hN _ _, S, hS, rfl⟩⟩
    rw [add_assoc]
    exact hk'
  · rw [Prog.wp_lens_update hlocked]
    exact fun _ => ⟨fun _ => .stay rfl rfl, S, hk, trivial, .inl ⟨rfl, rfl⟩⟩

/-- The pool's copy of the handle is written. -/
theorem Triple.setHandle (hN : N < 2 ^ 32) (hpin : Pinned ks) :
    Triple m w h ks
      ((pool (World.port N)).pool.update (SparsePool.setHandle (whoOf h).toNat h)) (Kind ks) :=
  Triple.update (fun s F hh hrepr hbal => by
    subst hh
    change Prog.wp _ _ ((pool (World.port N)).pool.update _) _ _
    rw [Prog.wp_lens_update (setHandle_val hN s.manager w)]
    exact ⟨_, ks, touch_setHandle hrepr _, rfl, .stay rfl rfl, hbal, rfl⟩) hpin

/-- The rest of `Acquire`: the first pointer. -/
theorem Triple.acquired (hN : N < 2 ^ 32) :
    Triple m w h (.popped ::ₘ ks) (do
      (pool (World.port N)).pool.update (SparsePool.setHandle (whoOf h).toNat h)
      SharedPoolPtr.construct (pool (World.port N)) h) (Same ⟨true, h⟩ (.born ::ₘ ks)) := by
  have hpin : Pinned (.popped ::ₘ ks) := pinned_cons (by decide) ks
  refine (Triple.setHandle hN hpin).kind_bind fun _ => ?_
  refine (Triple.addRef hN hpin fun v F hbal => ?_).same_bind (Triple.done ⟨rfl, rfl⟩)
  rw [Multiset.cons_add] at hbal ⊢
  exact hbal.acquire

/-- `Acquire`. -/
theorem safe_acquire (hN : N < 2 ^ 32) (hS : Past S) :
    Safe (discipline N m) m.answers (fun _ => True)
      (SparsePool.acquire (pool (World.port N)) SessionState.kPending.toNat)
      (fun p _ r => Acquires S (.born ::ₘ 0) p r) () S := by
  refine Safe.bind (Safe.mono (fun _ hr => hr) (fun x _ r hr => ?_) (safe_pop hN hS))
  obtain ⟨handle, valid⟩ := x
  rcases hr with ⟨hx, rfl⟩ | ⟨w, h, hx, hh, S', hS', rfl⟩
  · cases hx
    exact ⟨trivial, .inl ⟨rfl, rfl⟩⟩
  · cases hx
    refine Safe.mono (fun _ _ => trivial) (fun p _ r hr => ?_) (Triple.acquired hN S' hS')
    obtain ⟨ks', S'', hS'', rfl, rfl, rfl⟩ := hr
    exact .inr ⟨w, _, rfl, hh, S'', hS'', rfl⟩

/-- A session that is not listed yet has no pointer in the array; afterwards it has. -/
theorem Balanced.entry_starting {v : Account} {F : Multiset Stage} {k : Stage}
    (hbal : Balanced m v (k ::ₘ F)) (hk : k.starts = true) :
    v.entry + k.births.toNat = 1 := by
  have hentry := hbal.entry
  have hone := hbal.entryOne
  have hstart := hbal.starting
  have hsum := hbal.state
  have hle := tallies_le F
  simp only [tally_cons, hk, Bool.toNat_true] at hentry hone hstart
  omega

/-- The pointer is moved into the array. -/
theorem Triple.list :
    Triple m w h (.named ::ₘ ks) (assign (World.port N) (ptrLens (World.port N) w) ⟨true, h⟩)
      (Same () (.listed ::ₘ ks)) := by
  have hpin : Pinned (.named ::ₘ ks) := pinned_cons (by decide) ks
  refine Triple.bind (Q := fun p K => p.pool_ = false ∧ K = .named ::ₘ ks)
    (Triple.read hpin fun s F hh hbal => ?_) fun p K ⟨hpool, hK⟩ => ?_
  · rw [Multiset.cons_add] at hbal
    have hentry := hbal.entry_starting rfl
    exact ⟨Slot.null_entry (x := s.slot w) hbal.stray (by simpa using hentry), rfl⟩
  · subst hK
    dsimp only
    rw [hpool]
    refine Triple.update (fun s F hh hrepr hbal => ?_) hpin
    subst hh
    have haccount := (Slot.account_setEntry (x := s.slot w) (p := ⟨true, s.manager.handleAt w⟩)
      hbal.stray (stray_self _)).trans
        (congrArg (fun n => ({ (s.slot w).account with entry := n } : Account)) (live_self _))
    refine ⟨_, .listed ::ₘ ks, touch_setPtr hrepr _, rfl, .stay rfl rfl, ?_, rfl, rfl⟩
    rw [Multiset.cons_add] at hbal ⊢
    exact Eq.mpr (congrArg (fun v => Balanced _ v _) haccount) hbal.list

/-- It is copied from there. -/
theorem Triple.fetch (hN : N < 2 ^ 32) :
    Triple m w h (.listed ::ₘ ks) (copyOf (World.port N) (ptrLens (World.port N) w))
      (Same ⟨true, h⟩ (.fresh ::ₘ ks)) := by
  have hpin : Pinned (.listed ::ₘ ks) := pinned_cons (by decide) ks
  refine Triple.same_bind (K := .listed ::ₘ ks) (b := ⟨true, h⟩)
    (Triple.read hpin fun s F hh hbal => ?_) ?_
  · subst hh
    rw [Multiset.cons_add] at hbal
    exact ⟨Slot.live_entry (x := s.slot w) (hbal.entry_starting rfl), rfl⟩
  · refine (Triple.addRef hN hpin fun v F hbal => ?_).same_bind (Triple.done ⟨rfl, rfl⟩)
    rw [Multiset.cons_add] at hbal ⊢
    exact hbal.fetch

/-- `CreateSession`, from the acquired slot on. -/
theorem Triple.createSession (hN : N < 2 ^ 32) (hh : h ≠ kInvalidHandle) :
    Triple m w h (.born ::ₘ ks) (do
      let sessionPtr : SharedPoolPtr := ⟨true, h⟩
      let handle := sessionPtr.handle_
      (sessionLens (World.port N) (← SessionManager.deref (World.port N) sessionPtr)).modify
        fun s => { s with sessionManager_ := true }
      (sessionLens (World.port N) (← SessionManager.deref (World.port N) sessionPtr)).modify
        fun s => { s with handle_ := handle }
      let idx ← SessionManager.slot handle
      assign (World.port N) (ptrLens (World.port N) idx) sessionPtr
      copyOf (World.port N) (ptrLens (World.port N) idx)) (Same ⟨true, h⟩ (.fresh ::ₘ ks)) := by
  have hpin : Pinned (.born ::ₘ ks) := pinned_cons (by decide) ks
  refine (Triple.deref hN hpin).same_bind ?_
  refine Triple.same_bind (K := .managed ::ₘ ks) (Triple.modifySession hpin fun x F _ hbal => ?_) ?_
  · rw [Multiset.cons_add] at hbal ⊢
    exact hbal.setManager
  have hpin : Pinned (.managed ::ₘ ks) := pinned_cons (by decide) ks
  refine (Triple.deref hN hpin).same_bind ?_
  refine Triple.same_bind (K := .named ::ₘ ks) (Triple.modifySession hpin fun x F hx hbal => ?_) ?_
  · have haccount : Slot.account { x with session := { x.session with handle_ := h } } =
        { x.account with named := 1, unnamed := 0 } := by
      apply Account.ext
      case named => simp [Slot.account, hx]
      case unnamed => simp [Slot.account, hh]
      all_goals rfl
    rw [haccount]
    rw [Multiset.cons_add] at hbal ⊢
    exact hbal.setHandle
  refine (Triple.slot hN (pinned_cons (by decide) ks)).same_bind ?_
  exact Triple.list.same_bind (Triple.fetch hN)


/-- `CreateSession`. -/
theorem safe_createSession (hN : N < 2 ^ 32) (hS : Past S) :
    Safe (discipline N m) m.answers (fun _ => True) (SessionManager.createSession (World.port N))
      (fun p _ r => Acquires S (.fresh ::ₘ 0) p r) () S := by
  refine Safe.bind (Safe.mono (fun _ hr => hr) (fun p _ r hr => ?_) (safe_acquire hN hS))
  rcases hr with ⟨rfl, rfl⟩ | ⟨w, h, rfl, hh, S', hS', rfl⟩
  · exact ⟨trivial, .inl ⟨rfl, rfl⟩⟩
  · refine Safe.mono (fun _ _ => trivial) (fun p _ r hr => ?_)
      (((Triple.ptrIsValid hN (pinned_cons (by decide) 0)).same_bind
        (Triple.createSession hN hh)) S' hS')
    obtain ⟨ks', S'', hS'', rfl, rfl, rfl⟩ := hr
    exact .inr ⟨w, h, rfl, hh, S'', hS'', rfl⟩

/-! ## what it returned -/

theorem record_slot (s : World N) (p : SharedPoolPtr) (v : Fin N) : (s.record p).slot v = s.slot v := by
  unfold World.record
  split_ifs <;> rfl

theorem record_manager (s : World N) (p : SharedPoolPtr) : (s.record p).manager = s.manager := by
  unfold World.record
  split_ifs <;> rfl

theorem record_handled (s : World N) (p : SharedPoolPtr) : (s.record p).handled = s.handled := by
  unfold World.record
  split_ifs <;> rfl

theorem record_null (s : World N) : s.record .null = s := dif_neg fun h => Bool.false_ne_true h.1

theorem record_created {p : SharedPoolPtr} (hp : p.pool_ = true)
    (hw : (whoOf p.handle_).toNat = w) :
    (s.record p).created = (s.manager.session w, s.posted w) :: s.created := by
  have hlt : p.pool_ = true ∧ (whoOf p.handle_).toNat < N := ⟨hp, hw ▸ w.isLt⟩
  have hslot : (⟨_, hlt.2⟩ : Fin N) = w := Fin.ext hw
  unfold World.record
  rw [dif_pos hlt, hslot]

/-- A session that is about to be accepted on is unused. -/
theorem Balanced.unused (hwhole : m.whole = true) {F : Multiset Stage}
    (hbal : Balanced m (s.slot w).account F) (hpending : (s.slot w).account.pending = 1) :
    Unused (s.manager.session w) (s.posted w) := by
  have hsum := hbal.state
  have hquiet := hbal.quiet
  have hcleanRead := hbal.cleanRead
  have hcleanWrite := hbal.cleanWrite
  have hreceiving := hbal.receiving
  have hsenders := hbal.senders
  have hclosers := hbal.closers
  have hone : m.whole.toNat = 1 := by rw [hwhole, Bool.toNat_true]
  exact ⟨Bool.toNat_eq_zero.mp (show (s.slot w).account.dirtyRead = 0 by omega),
    Bool.toNat_eq_zero.mp (show (s.slot w).account.dirtyWrite = 0 by omega),
    Bool.toNat_eq_zero.mp (show (s.slot w).account.sending = 0 by omega),
    show (s.slot w).account.recv = 0 by omega, show (s.slot w).account.send = 0 by omega,
    show (s.slot w).account.disconnect = 0 by omega⟩

/-- Whose start is not over yet is pending. -/
theorem Balanced.pending_of_starts {v : Account} {F : Multiset Stage} {k : Stage}
    (hbal : Balanced m v F) (hmem : k ∈ F) (hk : k.starts = true) : v.pending = 1 := by
  have hpos := tally_pos hmem hk
  have hstart := hbal.starting
  have hsum := hbal.state
  omega

/-- What `CreateSession` returned is written down. -/
theorem Kept.record (hN : N < 2 ^ 32) (hk : Kept m s (tokensAt w h (.fresh ::ₘ ks) + R)) :
    Kept m (s.record ⟨true, h⟩) (tokensAt w h (.fresh ::ₘ ks) + R) := by
  have hh := hk.handle (Multiset.mem_cons_self _ _) (by decide)
  subst hh
  have hcreated := record_created (s := s) (p := ⟨true, s.manager.handleAt w⟩) rfl
    (SessionManager.toNat_whoOf hN s.manager w)
  refine ⟨?_, fun t hmem hne => ?_, fun v => ?_, fun hwhole x hx => ?_, fun hp => ?_⟩
  · rw [record_manager]
    exact hk.repr
  · rw [record_manager]
    exact hk.current t hmem hne
  · rw [record_slot]
    exact hk.balanced v
  · rw [hcreated] at hx
    rcases List.mem_cons.mp hx with rfl | hx
    · have hbal := hk.at
      exact hbal.unused hwhole (hbal.pending_of_starts
        (Multiset.mem_add.mpr (.inl (Multiset.mem_cons_self _ _))) rfl)
    · exact hk.created hwhole x hx
  · rw [record_handled]
    exact hk.handled hp

theorem Triple.record (hN : N < 2 ^ 32) :
    Triple m w h (.fresh ::ₘ ks) (World.change fun s => s.record ⟨true, h⟩)
      (Kind (.fresh ::ₘ ks)) :=
  Triple.change fun s F hk => ⟨fun v => by
    rw [record_slot]
    exact .stay rfl rfl, hk.record hN⟩

/-! ## handing the socket over -/

/-- `readOv_.sessionPtr_ = sessionPtr`, where there is no pointer yet. -/
theorem Triple.armAccept (hN : N < 2 ^ 32) :
    Triple m w h (.typed ::ₘ ks)
      (copyAssign (World.port N) (ovPtrLens (World.port N) w .read) ⟨true, h⟩)
      (Same () (.armed ::ₘ ks)) := by
  refine (Triple.readNull (pinned_cons (by decide) ks) fun v F hbal => ?_).bind fun p K ⟨hpool, hK⟩ => ?_
  · rw [Multiset.cons_add] at hbal
    have hfree := hbal.readFree
    simp only [tally_cons, Stage.needsNoRead, Bool.toNat_true] at hfree
    change v.read = 0
    omega
  · subst hK
    dsimp only
    rw [hpool]
    refine Triple.same_bind (K := .arming ::ₘ ks) (b := ()) (Triple.writeCell
      (pinned_cons (by decide) ks) (.inl rfl) fun v F hbal => ?_) ?_
    · rw [live_self]
      rw [Multiset.cons_add] at hbal ⊢
      exact hbal.armAccept
    · refine (Triple.addRef hN (pinned_cons (by decide) ks) fun v F hbal => ?_).same_bind
        (Triple.done ⟨rfl, rfl⟩)
      rw [Multiset.cons_add] at hbal ⊢
      exact hbal.countAccept

/-- `AcceptEx` posts an accept, or nothing. -/
theorem wp_acceptEx {post : BoolResult → World N × Unit → Prop}
    (hposted : ∀ r : BoolResult, r.posted = true → post r (s.listen w, ()))
    (hfailed : ∀ r : BoolResult, r.posted = false → m.accepting = false → post r (s, ())) :
    Prog.wp m.answers (Tolerated m) ((World.port N).acceptEx w) post (s, ()) := by
  intro r hr
  cases hr' : r.posted with
  | false =>
      have haccepting : m.accepting = false := by
        by_contra hp
        rw [hr.2 (by simpa using hp)] at hr'
        cases hr'
      simp [hr']
      exact hfailed r hr' haccepting
  | true =>
      simp [hr']
      exact hposted r hr'

theorem Triple.acceptEx :
    Triple m w h (.armed ::ₘ ks) ((World.port N).acceptEx w) (Kind (.unset ::ₘ ks)) := by
  refine Triple.locked rfl (fun s F hh hrepr hbal => ?_) (pinned_cons (by decide) ks)
  rw [Multiset.cons_add] at hbal
  refine wp_acceptEx (fun r hr => ?_) fun r hr haccepting => ?_
  · refine ⟨_, .unset ::ₘ ks, touch_listen hrepr, hh, .stay rfl rfl, ?_, rfl⟩
    rw [Multiset.cons_add]
    have hbal' := hbal.listen
    simpa [Slot.account, World.slot] using hbal'
  · refine ⟨_, .unset ::ₘ ks, Touch.refl w hrepr, hh, .stay rfl rfl, ?_, rfl⟩
    rw [Multiset.cons_add]
    exact hbal.refuse haccepting

/-- A change of one `OverlappedEx`. -/
theorem Triple.modifyOv {ks' : Multiset Stage} {i : Ov} {f : OverlappedEx → OverlappedEx}
    (hpin : Pinned ks) (hf : ∀ (x : Slot) F, Balanced m x.account (ks + F) →
      Balanced m (Slot.account { x with session := x.session.setOv (f (x.session.ov i)) i })
        (ks' + F)) :
    Triple m w h ks ((ovLens (World.port N) w i).modify f) (Same () ks') :=
  Triple.update (fun s F hh hrepr hbal => ⟨_, ks', touch_setSession hrepr
    ((s.manager.session w).setOv (f ((s.manager.session w).ov i)) i), hh, .stay rfl rfl,
    hf (s.slot w) F hbal, rfl, rfl⟩) hpin

/-- `RegisterAccept`, which never fails. -/
theorem Triple.registerAccept (hN : N < 2 ^ 32) :
    Triple m w h (.fresh ::ₘ ks) (Server.registerAccept (World.port N) ⟨true, h⟩)
      (Same true (.unset ::ₘ ks)) := by
  have hpin : Pinned (.typed ::ₘ ks) := pinned_cons (by decide) ks
  refine (Triple.deref hN (pinned_cons (by decide) ks)).same_bind ?_
  refine Triple.same_bind (K := .typed ::ₘ ks) (Triple.modifyOv
    (pinned_cons (k := .fresh) (by decide) ks) fun x F hbal => ?_) ?_
  · rw [Multiset.cons_add] at hbal ⊢
    exact hbal.setAccept
  refine (Triple.deref hN hpin).same_bind ?_
  refine Triple.same_bind (K := .typed ::ₘ ks) (Triple.modifyOv hpin fun x F hbal => hbal) ?_
  refine (Triple.deref hN hpin).same_bind ((Triple.armAccept hN).same_bind ?_)
  refine (Triple.deref hN (pinned_cons (k := .armed) (by decide) ks)).same_bind ?_
  exact Triple.acceptEx.kind_bind fun r => Triple.done ⟨Listener.registerAccept_eq r, rfl⟩

/-- `SetListener`. -/
theorem Triple.setListener :
    Triple m w h (.unset ::ₘ ks) (World.setListener w) (Kind (.ref ::ₘ ks)) := by
  refine Triple.locked rfl (fun s F hh hrepr hbal => ?_) (pinned_cons (by decide) ks)
  have hset := touch_setSession (w := w) hrepr { s.manager.session w with listener_ := true }
  have htouch := hset.trans (touch_hear (w := w) hset.repr)
  rw [hset.slot] at htouch
  refine ⟨_, .ref ::ₘ ks, htouch, hh, .stay rfl rfl, ?_, rfl⟩
  rw [Multiset.cons_add] at hbal ⊢
  exact hbal.setListener

/-- The rest of a turn of `PostAccept`. -/
theorem Triple.postAccept (hN : N < 2 ^ 32) (execute : Fin N → Nat → _) :
    Triple m w h (.fresh ::ₘ ks)
      (Server.postAccept (World.port N) execute World.setListener ⟨true, h⟩) (Kind ks) := by
  have hpin : Pinned (.unset ::ₘ ks) := pinned_cons (by decide) ks
  refine (Triple.ptrIsValid hN (pinned_cons (by decide) ks)).same_bind ?_
  refine (Triple.registerAccept hN).same_bind ((Triple.deref hN hpin).same_bind ?_)
  refine Triple.setListener.kind_bind fun _ => ?_
  exact Triple.kind_bind (Triple.destroy hN rfl) fun _ => Triple.done rfl

/-- A turn of `PostAccept`, by a thread with nothing to do. -/
theorem safe_postAccept (hN : N < 2 ^ 32) (hS : Past S) :
    Safe (discipline N m) m.answers (fun _ => True) (World.Op.postAccept.prog m.whole)
      (fun _ _ r => Past r) () S := by
  refine Safe.bind (Safe.mono (fun _ hr => hr) (fun p _ r hr => ?_) (safe_createSession hN hS))
  rcases hr with ⟨rfl, hr⟩ | ⟨w, h, rfl, -, S', hS', rfl⟩
  · rw [hr]
    have hrecord : Safe (discipline N m) m.answers (fun _ => True)
        (World.change fun s => s.record .null) (fun _ _ r => r = S) () S :=
      Safe.update trivial fun s F _ hk => ⟨(), s, (), congrArg (fun s => Except.ok ((), s, ())) (record_null s),
        fun _ => ⟨fun _ => .stay rfl rfl, S, hk, trivial, rfl⟩⟩
    refine Safe.bind (Safe.mono (fun _ hr => hr) (fun _ _ r hr => ?_) hrecord)
    subst hr
    exact ⟨trivial, hS⟩
  · have hturn : Triple m w h (.fresh ::ₘ 0) (do
        World.change fun s => s.record ⟨true, h⟩
        let _ ← Server.postAccept (World.port N) (World.execute m.whole) World.setListener
          ⟨true, h⟩
        pure ()) (Kind 0) :=
      (Triple.record hN).kind_bind fun _ => (Triple.postAccept hN _).kind_bind fun _ => Triple.done rfl
    refine Safe.mono (fun _ _ => trivial) (fun _ _ r hr => ?_) (hturn S' hS')
    obtain ⟨ks', S'', hS'', rfl, rfl⟩ := hr
    simpa [tokensAt] using hS''

end Server

end ServerStudy
