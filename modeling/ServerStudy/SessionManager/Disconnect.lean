import ServerStudy.SessionManager.Handles

/-!
# ServerStudy.SessionManager.Disconnect

What a call of `Session::Disconnect` leaves behind when it moves the session to
`kDisconnecting`.

`DisconnectEx` returns a `BOOL`, which `Disconnect` compares with `SOCKET_ERROR`;
the two are never equal, so its error path is never taken.

* `wp_disconnect` — what the call does, up to `DisconnectEx` and its result;
* `stranded_iff` — it does what it should exactly when `DisconnectEx` posts an
  operation.
-/

namespace ServerStudy

namespace SessionManager

variable {N : Nat}

/-- What `Disconnect` finds on a session in use, in every state reached. -/
structure Ready (m : SessionManager N) (w : Fin N) : Prop where
  repr : ∃ b, SparseSet.Repr m.sessionPool_.set b
  used : m.state w ≠ 0
  handle : (m.session w).handle_ = m.handleAt w
  managed : (m.session w).sessionManager_ = true
  active : m.state w = 1 ∨ m.state w = 2 → m.sessionPtrs_ w = ⟨true, m.handleAt w⟩
  /-- it does not refer to itself yet -/
  alone : (m.session w).disconnectOv_.sessionPtr_.pool_ = false

theorem Holding.Reachable.ready (hN : N < 2 ^ 32) {s : Holding N} {releases : Fin N → Nat}
    (hs : Holding.Reachable s releases) {w : Fin N} (hw : s.manager.state w ≠ 0) :
    Ready s.manager w := by
  have h := hs.coheres hN
  exact ⟨Coherent.repr h, hw, Coherent.used h w hw, Coherent.managed h w hw, Coherent.active h w,
    Coherent.ovs h w .disconnect⟩

/-! ## the calls of a session -/

section Calls

variable {σ : Type} {Q : Type → Type} {P : ServerPort σ Q N} {ok : Answers σ Q}
  {bad : Fault → Prop} {s : σ} {w : Fin N} {execute : Nat → Prog σ Q Fault Bool}

theorem ovPtrLens_get (i : Ov) (s : σ) :
    (ovPtrLens P w i).get s = (((P.manager.get s).session w).ov i).sessionPtr_ := rfl

theorem ovPtrLens_set (i : Ov) (p : SharedPoolPtr) (s : σ) :
    (ovPtrLens P w i).set p s = P.manager.set ((P.manager.get s).setOvPtr w i p) s := rfl

theorem wp_managerOf (h : ((P.manager.get s).session w).sessionManager_ = true)
    {post : Unit → σ → Prop} : Prog.wp ok bad (managerOf P w) post s ↔ post () s :=
  Prog.wp_lens_view (if_pos h)

/-- `GetState` of a slot's own handle. -/
theorem wp_session_getState (hN : N < 2 ^ 32)
    (h : ((P.manager.get s).session w).sessionManager_ = true) {post : Option Nat → σ → Prop} :
    Prog.wp ok bad ((sessionPort P execute w).getState ((P.manager.get s).handleAt w)) post s ↔
      post (some ((P.manager.get s).state w)) s := by
  have hstate : (P.manager.get s).sessionPool_.set.getState ((P.manager.get s).handleAt w) =
      some ((P.manager.get s).state w) := by
    rw [SparseSet.getState, isValid_handleAt hN, if_pos rfl, toNat_whoOf hN, FixedArray.get?_val]
    rfl
  show Prog.wp ok bad ((managerOf P w).bind fun _ => _) post s ↔ _
  rw [Prog.wp_bind, wp_managerOf h, ← hstate]
  rfl

/-- `sessionPtr_ = sessionManager_->GetSession(handle_)` over a dead pointer. -/
theorem wp_assignSessionPtr (hN : N < 2 ^ 32) (hP : P.manager.Lawful)
    (h : ((P.manager.get s).session w).sessionManager_ = true)
    (hlive : (P.manager.get s).sessionPtrs_ w = ⟨true, (P.manager.get s).handleAt w⟩) {i : Ov}
    (hdead : Dead (P.manager.get s) (((P.manager.get s).session w).ov i).sessionPtr_)
    {post : Unit → σ → Prop} :
    Prog.wp ok bad
        ((sessionPort P execute w).assignSessionPtr i ((P.manager.get s).handleAt w)) post s ↔
      post () (P.manager.set (((P.manager.get s).retain w).setOvPtr w i
        ⟨true, (P.manager.get s).handleAt w⟩) s) := by
  show Prog.wp ok bad ((managerOf P w).bind fun _ => (getSession P _).bind fun _ => _) post s ↔ _
  rw [Prog.wp_bind, wp_managerOf h, Prog.wp_bind]
  unfold getSession
  rw [Prog.bind_eq, Prog.wp_bind, wp_isValid, isValid_handleAt hN]
  simp only [Bool.not_true, Bool.false_eq_true, if_false, Prog.bind_eq, Prog.wp_bind]
  have hentry : Live (P.manager.get s) w ((ptrLens P w).get s) := hlive
  rw [wp_slot hN, wp_copyOf, wp_copy_live hN hentry]
  have hover : Dead (P.manager.get (P.manager.set ((P.manager.get s).retain w) s))
      ((ovPtrLens P w i).get (P.manager.set ((P.manager.get s).retain w) s)) := by
    rw [ovPtrLens_get, P.manager.get_set]
    exact hdead
  rw [wp_assign_dead hover, ovPtrLens_set, P.manager.get_set, set_set hP, hentry]

/-- What `Disconnect` leaves when it moves the session, `DisconnectEx` aside. -/
def disconnecting (m : SessionManager N) (w : Fin N) (set : SparseSet N SessionState.kCnt) :
    SessionManager N :=
  (((m.withSet set).setSession w
    { m.session w with disconnectOv_.ioType_ := .kDisconnect }).retain w).setOvPtr w .disconnect
      ⟨true, m.handleAt w⟩

/-- `Disconnect` of a slot in use: the state is moved and the session referred
to before `DisconnectEx` is called, and whatever it returns is taken for success. -/
theorem wp_disconnect (hN : N < 2 ^ 32) (hP : P.manager.Lawful) (h : Ready (P.manager.get s) w)
    {post : Bool → σ → Prop}
    (hstay : (P.manager.get s).state w = 3 → post true s)
    (hmove : ∀ b set, (P.manager.get s).state w ≠ 3 →
      SparseSet.Repr (P.manager.get s).sessionPool_.set b →
      SparseSet.Leads set
        (Function.update b.block w ⟨SessionState.kDisconnecting.toNat, by decide⟩)
        (P.manager.get s).sessionPool_.set.gen →
      Prog.wp ok bad (P.disconnectEx w) (fun _ s' => post true s')
        (P.manager.set ((P.manager.get s).disconnecting w set) s)) :
    Prog.wp ok bad (Session.disconnect (sessionPort P execute w)) post s := by
  have hmanaged := h.managed
  have hused := h.used
  have hself : (sessionPort P execute w).self.get s = (P.manager.get s).session w := rfl
  unfold Session.disconnect Session.disconnectLocked
  rw [Prog.bind_eq, Prog.wp_bind, Prog.wp_atomically, Prog.bind_eq, Prog.wp_bind,
    Prog.wp_lens_read, hself, h.handle, Prog.bind_eq, Prog.wp_bind,
    wp_session_getState hN hmanaged]
  obtain ⟨b, hb⟩ := h.repr
  have hlt : (P.manager.get s).state w < 4 := by
    rw [state, hb.state]
    exact (b.block w).isLt
  by_cases h3 : (P.manager.get s).state w = 3
  · rw [h3]
    exact hstay h3
  have h12 : (P.manager.get s).state w = 1 ∨ (P.manager.get s).state w = 2 := by omega
  have hif : some ((P.manager.get s).state w) = some SessionState.kPending.toNat ∨
      some ((P.manager.get s).state w) = some SessionState.kConnected.toNat := by
    rcases h12 with h | h <;> rw [h] <;> decide
  rw [if_pos hif, Prog.bind_eq, Prog.wp_bind]
  show Prog.wp ok bad ((managerOf P w).bind fun _ => _) _ s
  rw [Prog.wp_bind, wp_managerOf hmanaged]
  refine wp_moveToState hN hb w ⟨SessionState.kDisconnecting.toNat, by decide⟩ fun set hset => ?_
  have hcall := hmove b set h3 hb hset
  have hactive := h.active h12
  have hov := h.alone
  have hown := h.handle
  generalize hm : P.manager.get s = m at hcall hactive hov hown hset hmanaged ⊢
  have hhandle : (m.withSet set).handleAt w = m.handleAt w := handleAt_eq (congrFun hset.2 w)
  -- past the lock: the session refers to itself
  show Prog.wp ok bad (((sessionLens P w).modify fun x =>
    { x with disconnectOv_.ioType_ := .kDisconnect }).bind fun _ => _) post _
  rw [Prog.wp_bind, wp_session_modify, P.manager.get_set, set_set hP, Prog.bind_eq, Prog.wp_bind,
    Prog.wp_lens_read]
  generalize hm₂ : (m.withSet set).setSession w { (m.withSet set).session w with
    disconnectOv_.ioType_ := .kDisconnect } = m₂
  have hsession : m₂.session w = { m.session w with disconnectOv_.ioType_ := .kDisconnect } := by
    rw [← hm₂, session_setSession]
    rfl
  have hhandle₂ : m₂.handleAt w = m.handleAt w := by
    rw [← hhandle, ← hm₂]
    rfl
  have hptr₂ : m₂.sessionPtrs_ = m.sessionPtrs_ := by
    rw [← hm₂]
    rfl
  have hset₂ : m₂.sessionPool_.set = set := by
    rw [← hm₂]
    rfl
  have hself₂ : ((sessionPort P execute w).self.get (P.manager.set m₂ s)).handle_ =
      (P.manager.get (P.manager.set m₂ s)).handleAt w := by
    show ((P.manager.get (P.manager.set m₂ s)).session w).handle_ = _
    rw [P.manager.get_set, hsession, hhandle₂]
    exact hown
  rw [hself₂, Prog.bind_eq, Prog.wp_bind, wp_assignSessionPtr hN hP]
  · have hend : (m₂.retain w).setOvPtr w .disconnect ⟨true, m.handleAt w⟩ =
        m.disconnecting w set := by
      rw [← hm₂]
      rfl
    rw [P.manager.get_set, set_set hP, hhandle₂, hend]
    show Prog.wp ok bad (((P.disconnectEx w).bind fun r => _).bind fun _ => _) post _
    rw [Prog.bind_assoc, Prog.wp_bind]
    refine Prog.wp_mono (fun r s' hr => ?_) hcall
    show Prog.wp ok bad (if r.toBOOL = SOCKET_ERROR then _ else _) post s'
    rw [if_neg r.toBOOL_ne]
    exact hr
  · rw [P.manager.get_set, hsession]
    exact hmanaged
  · rw [P.manager.get_set, hptr₂, hhandle₂]
    exact hactive
  · rw [P.manager.get_set, hsession]
    exact dead_of_pool hov

end Calls

/-! ## one call, and what the kernel makes of it -/

/-- The kernel's answer to `DisconnectEx`. -/
inductive Kernel : Type → Type where
  | disconnectEx : Kernel BoolResult

/-- The manager's memory, and the slots with a disconnect outstanding. -/
structure Closing (N : Nat) where
  manager : SessionManager N
  outstanding : Fin N → Bool

namespace Closing

/-- The manager within it. -/
def managerLens : Lens (Closing N) (SessionManager N) where
  get s := s.manager
  set m s := { s with manager := m }
  get_set _ _ := rfl

theorem managerLens_lawful (N : Nat) : (managerLens (N := N)).Lawful := ⟨fun _ => rfl, fun _ _ _ => rfl⟩

/-- `DisconnectEx` on the session in a slot. -/
def disconnectEx (w : Fin N) : Prog (Closing N) Kernel Fault BoolResult := do
  let r ← Prog.query .disconnectEx
  Prog.modify fun s =>
    { s with outstanding := Function.update s.outstanding w (s.outstanding w || r.posted) }
  return r

/-- The manager.  `Disconnect` releases nothing, and calls nothing else. -/
def port : ServerPort (Closing N) Kernel N where
  manager := managerLens
  postRelease := Prog.fault .endless
  wsaRecv _ _ := Prog.fault .emptyFunction
  wsaSend _ _ := Prog.fault .emptyFunction
  disconnectEx := disconnectEx
  acceptEx _ := Prog.fault .emptyFunction
  setsockopt _ := Prog.fault .emptyFunction

/-- `Session::Disconnect` of the session in a slot. -/
def disconnect (w : Fin N) : Prog (Closing N) Kernel Fault Bool :=
  Session.disconnect (sessionPort port (fun _ => Prog.fault .emptyFunction) w)

/-- `DisconnectEx` gives this result. -/
def answers (r : BoolResult) : Answers (Closing N) Kernel
  | _, _, .disconnectEx, a => a = r

/-- Not stranded by a call that returned `b`: if it has moved the session to
`kDisconnecting`, a disconnect is outstanding, or the call has failed and the
session does not refer to itself; and it has not returned true without one. -/
def Sound (w : Fin N) (b : Bool) (s s' : Closing N) : Prop :=
  s.manager.state w ≠ SessionState.kDisconnecting.toNat →
  s'.manager.state w = SessionState.kDisconnecting.toNat →
    (s'.outstanding w = true ∨ b = false ∧
      (s'.manager.session w).disconnectOv_.sessionPtr_ ≠ ⟨true, s'.manager.handleAt w⟩) ∧
    (b = true → s'.outstanding w = true)

/-- The whole of a call. -/
theorem wp_call (hN : N < 2 ^ 32) {m : SessionManager N} {w : Fin N} (h : Ready m w)
    (r : BoolResult) : Prog.wp (answers r) (fun _ => False) (disconnect w)
      (fun b s' => b = true ∧ (m.state w = 3 ∨
        s'.manager.state w = 3 ∧ s'.outstanding w = r.posted)) ⟨m, fun _ => false⟩ := by
  refine wp_disconnect (P := port) (s := ⟨m, fun _ => false⟩) hN (managerLens_lawful N) h
    (fun h3 => ⟨rfl, .inl h3⟩) fun b set _ hb hset => ?_
  rintro a rfl
  have hstate : (m.disconnecting w set).state w = 3 := (state_moved hb hset).1
  refine ⟨rfl, .inr ⟨hstate, ?_⟩⟩
  show Function.update (fun _ => false) w (false || a.posted) w = a.posted
  rw [Function.update_self, Bool.false_or]

theorem exists_answer (r : BoolResult) (β : Type) (s : Closing N) (q : Kernel β) :
    ∃ a, answers r β s q a := by
  cases q
  exact ⟨r, rfl⟩

end Closing

/-- **When `Disconnect` strands no session.**  On a session in use, exactly when
`DisconnectEx` posts an operation, or the session is in `kDisconnecting` already. -/
theorem stranded_iff (hN : N < 2 ^ 32) (m : SessionManager N) (w : Fin N) (hm : Ready m w)
    (r : BoolResult) :
    (∀ b s', Prog.Exec (Closing.answers r) (Closing.disconnect w) ⟨m, fun _ => false⟩
        (.ok (b, s')) → Closing.Sound w b ⟨m, fun _ => false⟩ s') ↔
      r.posted = true ∨ m.state w = SessionState.kDisconnecting.toNat := by
  have hcall := Closing.wp_call hN hm r
  constructor
  · intro h
    by_contra hno
    rw [not_or] at hno
    obtain ⟨b, s', hexec, hb, hend⟩ := Prog.exists_ok (Closing.exists_answer r) hcall
    obtain ⟨hstate, hposted⟩ := hend.resolve_left hno.2
    have hsound := (h b s' hexec hno.2 hstate).2 hb
    exact hno.1 (hposted ▸ hsound)
  · rintro h b s' hexec hne hmoved
    obtain ⟨hb, hend⟩ := hexec.post hcall
    obtain ⟨-, hposted⟩ := hend.resolve_left hne
    have hout : s'.outstanding w = true := hposted.trans (h.resolve_right hne)
    exact ⟨.inl hout, fun _ => hout⟩

/-- A session just created, and a `DisconnectEx` that succeeds. -/
theorem stranded_iff_created : ∃ s : Holding 1,
    (∀ b s', Prog.Exec (Closing.answers ⟨true, 0⟩) (Closing.disconnect 0)
        ⟨s.manager, fun _ => false⟩ (.ok (b, s')) →
          Closing.Sound 0 b ⟨s.manager, fun _ => false⟩ s') ↔
      (⟨true, 0⟩ : BoolResult).posted = true ∨
        s.manager.state 0 = SessionState.kDisconnecting.toNat := by
  obtain ⟨s, releases, hs, hstate⟩ := Holding.exists_created
  exact ⟨s, stranded_iff (by decide) s.manager 0
    (hs.ready (by decide) (by rw [hstate]; decide)) ⟨true, 0⟩⟩

/-- The same session, and a `DisconnectEx` that fails with `WSAENOTCONN`: the call
returns true, and no disconnect is outstanding. -/
theorem disconnect_strands : ∃ (s : Holding 1) (releases : Fin 1 → Nat) (s' : Closing 1),
    Holding.Reachable s releases ∧
    Prog.Exec (Closing.answers ⟨false, 10057⟩) (Closing.disconnect 0) ⟨s.manager, fun _ => false⟩
      (.ok (true, s')) ∧
    s'.manager.state 0 = SessionState.kDisconnecting.toNat ∧ s'.outstanding 0 = false ∧
    ¬ Closing.Sound 0 true ⟨s.manager, fun _ => false⟩ s' := by
  obtain ⟨s, releases, hs, hstate⟩ := Holding.exists_created
  have hne : s.manager.state 0 ≠ SessionState.kDisconnecting.toNat := by
    rw [hstate]
    decide
  obtain ⟨b, s', hexec, rfl, hend⟩ := Prog.exists_ok (Closing.exists_answer ⟨false, 10057⟩)
    (Closing.wp_call (by decide) (hs.ready (by decide) (w := 0) (by rw [hstate]; decide))
      ⟨false, 10057⟩)
  obtain ⟨hmoved, hposted⟩ := hend.resolve_left hne
  have hout : s'.outstanding 0 = false := by
    rw [hposted]
    decide
  refine ⟨s, releases, s', hs, hexec, hmoved, hout, fun hsound => ?_⟩
  have htrue := (hsound hne hmoved).2 rfl
  rw [hout] at htrue
  cases htrue

end SessionManager

end ServerStudy
