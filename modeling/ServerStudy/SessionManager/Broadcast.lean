import ServerStudy.SessionManager.Handles

/-!
# ServerStudy.SessionManager.Broadcast

Whom `SessionManager::Broadcast` sends to, when nobody interferes.

A `SendPacket` is logged, and may leave anything in its session and in its
count, and return anything.

* `wp_broadcastLoop` — the loop sends once to each slot of the snapshot but one;
* `broadcast_exact` — in every state reached, these are the others.
-/

namespace ServerStudy

namespace SessionManager

variable {N : Nat}

/-- What a `SendPacket` leaves in its session and in its count, and returns. -/
inductive Effect : Type → Type where
  | sendPacket : Effect (Session × Nat × Bool)

/-- The manager's memory, and the packets sent, with the slots they were sent to. -/
structure Sending (N : Nat) where
  manager : SessionManager N
  sent : List (List UInt8 × Fin N)

namespace Sending

/-- The manager within it. -/
def managerLens : Lens (Sending N) (SessionManager N) where
  get s := s.manager
  set m s := { s with manager := m }
  get_set _ _ := rfl

/-- The manager.  `Broadcast` calls nothing but `SendPacket`. -/
def port : ServerPort (Sending N) Effect N where
  manager := managerLens
  postRelease := Prog.fault .endless
  wsaRecv _ _ := Prog.fault .emptyFunction
  wsaSend _ _ := Prog.fault .emptyFunction
  disconnectEx _ := Prog.fault .emptyFunction
  acceptEx _ := Prog.fault .emptyFunction
  setsockopt _ := Prog.fault .emptyFunction

/-- `SendPacket` on the session in a slot, which keeps its handle. -/
def send (packet : List UInt8) (_handle : UInt64) (w : Fin N) : Prog (Sending N) Effect Fault Bool := do
  Prog.modify fun s => { s with sent := s.sent ++ [(packet, w)] }
  let (x, count, result) ← Prog.query .sendPacket
  Prog.modify fun s =>
    { s with
      manager := (s.manager.setSession w { x with handle_ := (s.manager.session w).handle_ }).recount
        w count }
  return result

/-- `Broadcast(header, sessionHandle)`. -/
def broadcast (packet : List UInt8) (sessionHandle : UInt64) : Prog (Sending N) Effect Fault Bool :=
  SessionManager.broadcast port (send packet) sessionHandle

/-- Anything may be answered. -/
def anything : Answers (Sending N) Effect := fun _ _ _ _ => True

/-- The packet was sent to these slots, and nothing else was done. -/
structure Sent (packet : List UInt8) (targets : List (Fin N)) (s s' : Sending N) : Prop where
  sent : s'.sent = s.sent ++ targets.map fun w => (packet, w)
  set : s'.manager.sessionPool_.set = s.manager.sessionPool_.set
  handle_ : s'.manager.sessionPool_.handle_ = s.manager.sessionPool_.handle_
  ptrs : s'.manager.sessionPtrs_ = s.manager.sessionPtrs_
  own : ∀ w, (s'.manager.session w).handle_ = (s.manager.session w).handle_
  refCount : ∀ w, w ∉ targets → s'.manager.refCount w = s.manager.refCount w
  session : ∀ w, w ∉ targets → s'.manager.session w = s.manager.session w

variable {packet : List UInt8} {s s₁ s₂ : Sending N} {w : Fin N} {l : List (Fin N)}

theorem Sent.refl : Sent packet [] s s :=
  ⟨by simp, rfl, rfl, rfl, fun _ => rfl, fun _ _ => rfl, fun _ _ => rfl⟩

theorem Sent.handleAt (h : Sent packet l s s₁) : s₁.manager.handleAt = s.manager.handleAt := by
  funext w
  rw [SessionManager.handleAt, SessionManager.handleAt, h.set]

/-- One more target, before the others. -/
theorem Sent.cons (h : Sent packet [w] s s₁) (h' : Sent packet l s₁ s₂) :
    Sent packet (w :: l) s s₂ where
  sent := by
    rw [h'.sent, h.sent, List.append_assoc]
    rfl
  set := h'.set.trans h.set
  handle_ := h'.handle_.trans h.handle_
  ptrs := h'.ptrs.trans h.ptrs
  own v := (h'.own v).trans (h.own v)
  refCount v hv := by
    rw [List.mem_cons, not_or] at hv
    rw [h'.refCount v hv.2, h.refCount v (by simpa using hv.1)]
  session v hv := by
    rw [List.mem_cons, not_or] at hv
    rw [h'.session v hv.2, h.session v (by simpa using hv.1)]

/-- A turn for a handle to send to. -/
theorem wp_sendTo (hN : N < 2 ^ 32) (hptr : s.manager.sessionPtrs_ w = ⟨true, s.manager.handleAt w⟩)
    {post : Unit → Sending N → Prop} (hpost : ∀ s', Sent packet [w] s s' → post () s') :
    Prog.wp anything (fun _ => False) (sendTo port (send packet) (s.manager.handleAt w)) post s := by
  have hlive : Live (port.manager.get s) w ((ptrLens port w).get s) := hptr
  refine (wp_sendTo_live hN hlive).mpr ?_
  rintro ⟨x, count, result⟩ -
  refine hpost _ ⟨rfl, rfl, rfl, rfl, fun v => ?_, fun v hv => ?_, fun v hv => ?_⟩
  · show (Function.update s.manager.session w _ v).handle_ = _
    by_cases hvw : v = w
    · rw [hvw, Function.update_self]
    · rw [Function.update_of_ne hvw]
  · exact Function.update_of_ne (List.ne_of_not_mem_cons hv) _ _
  · exact Function.update_of_ne (List.ne_of_not_mem_cons hv) _ _

/-- The loop sends once to each slot of its list but that of `sessionHandle`. -/
theorem wp_broadcastLoop (hN : N < 2 ^ 32) {sessionHandle : UInt64}
    (hptrs : ∀ w ∈ l, s.manager.sessionPtrs_ w = ⟨true, s.manager.handleAt w⟩) :
    Prog.wp anything (fun _ => False)
      (broadcastLoop (sendTo port (send packet)) sessionHandle (l.map s.manager.handleAt))
      (fun b s' => b = true ∧
        Sent packet (l.filter fun w => s.manager.handleAt w ≠ sessionHandle) s s') s := by
  induction l generalizing s with
  | nil => exact ⟨rfl, .refl⟩
  | cons w l ih =>
      have hrest : ∀ v ∈ l, s.manager.sessionPtrs_ v = ⟨true, s.manager.handleAt v⟩ := fun v hv =>
        hptrs v (List.mem_cons_of_mem w hv)
      rw [List.map_cons, broadcastLoop, List.filter_cons]
      by_cases hskip : s.manager.handleAt w = sessionHandle
      · rw [if_neg (not_not_intro hskip), if_neg (by simp [hskip])]
        exact ih hrest
      · rw [if_pos hskip, if_pos (by simpa using hskip), Prog.bind_eq, Prog.wp_bind]
        refine wp_sendTo hN (hptrs w List.mem_cons_self) fun s₁ h₁ => ?_
        have hloop := ih (s := s₁) fun v hv => by
          rw [h₁.ptrs, h₁.handleAt]
          exact hrest v hv
        rw [h₁.handleAt] at hloop
        exact Prog.wp_mono (fun b s' hb => ⟨hb.1, h₁.cons hb.2⟩) hloop

end Sending

/-- **`Broadcast` reaches exactly the others.**  It returns true, having sent the
packet once to every session that is connected and has another handle, and to
no other; the states, the generations, the array and the counts of the sessions
not sent to are as they were. -/
theorem broadcast_exact (hN : N < 2 ^ 32) {s : Holding N} {releases : Fin N → Nat}
    (hs : Holding.Reachable s releases) (packet : List UInt8) (sessionHandle : UInt64)
    (r : Except Fault (Bool × Sending N))
    (hr : Prog.Exec Sending.anything (Sending.broadcast packet sessionHandle) ⟨s.manager, []⟩ r) :
    ∃ s', r = .ok (true, s') ∧
      (∀ e, s'.sent.count e = if e.1 = packet ∧
        s.manager.state e.2 = SessionState.kConnected.toNat ∧
          (s.manager.session e.2).handle_ ≠ sessionHandle then 1 else 0) ∧
      s'.manager.sessionPool_.set = s.manager.sessionPool_.set ∧
      s'.manager.sessionPtrs_ = s.manager.sessionPtrs_ ∧
      ∀ w, (packet, w) ∉ s'.sent → s'.manager.refCount w = s.manager.refCount w := by
  have h := hs.coheres hN
  obtain ⟨b, hb⟩ := Coherent.repr h
  have hstate : ∀ w, w ∈ b.members SessionState.kConnected.toNat ↔
      s.manager.state w = SessionState.kConnected.toNat := fun w => by
    rw [b.mem_members w ⟨SessionState.kConnected.toNat, by decide⟩, state, hb.state]
    exact ⟨fun he => by rw [he], fun he => Fin.ext he⟩
  have hlist : s.manager.sessionPool_.set.getIndicesInState SessionState.kConnected.toNat =
      some ((b.members SessionState.kConnected.toNat).map s.manager.handleAt) :=
    SparseSet.getIndicesInState_spec hN hb ⟨SessionState.kConnected.toNat, by decide⟩
  have hwp : Prog.wp Sending.anything (fun _ => False) (Sending.broadcast packet sessionHandle)
      (fun b' s' => b' = true ∧ Sending.Sent packet
        ((b.members SessionState.kConnected.toNat).filter fun w => s.manager.handleAt w ≠ sessionHandle) ⟨s.manager, []⟩ s')
      ⟨s.manager, []⟩ := by
    unfold Sending.broadcast SessionManager.broadcast SparsePool.getIndicesInState
    rw [Prog.bind_eq, Prog.wp_bind, Prog.wp_lens_view
      (b := (b.members SessionState.kConnected.toNat).map s.manager.handleAt)]
    · exact Sending.wp_broadcastLoop (s := ⟨s.manager, []⟩) hN fun w hw =>
        Coherent.active h w (.inr ((hstate w).mp hw))
    · show Prog.orFault _ (s.manager.sessionPool_.set.getIndicesInState _) = _
      rw [hlist]
      rfl
  have hmeets := hr.meets hwp
  cases r with
  | error e => exact hmeets.elim
  | ok r =>
      obtain ⟨b', s'⟩ := r
      obtain ⟨rfl, hsent⟩ := hmeets
      refine ⟨s', rfl, ?_, hsent.set, hsent.ptrs, fun w hw => hsent.refCount w fun hmem => hw ?_⟩
      · rintro ⟨p, w⟩
        have hnodup : (((b.members SessionState.kConnected.toNat).filter fun w =>
            s.manager.handleAt w ≠ sessionHandle).map fun w => (packet, w)).Nodup :=
          ((b.nodup_members _).filter _).map fun v w hvw => congrArg Prod.snd hvw
        rw [hsent.sent, List.nil_append, hnodup.count]
        congr 1
        rw [List.mem_map, eq_iff_iff]
        constructor
        · rintro ⟨v, hv, he⟩
          obtain ⟨rfl, rfl⟩ := Prod.mk.inj he
          rw [List.mem_filter, hstate] at hv
          refine ⟨rfl, hv.1, ?_⟩
          rw [Coherent.used h v (by rw [hv.1]; decide)]
          simpa using hv.2
        · rintro ⟨rfl, hw, hne⟩
          rw [Coherent.used h w (by rw [hw]; decide)] at hne
          exact ⟨w, List.mem_filter.mpr ⟨(hstate w).mpr hw, by simpa using hne⟩, rfl⟩
      · rw [hsent.sent]
        exact List.mem_append_right _ (List.mem_map.mpr ⟨w, hmem, rfl⟩)

/-- A broadcast for the first of two connected sessions reaches the second alone. -/
theorem broadcast_exact_pair : ∃ (s : Holding 2) (s' : Sending 2),
    s.manager.state 0 = SessionState.kConnected.toNat ∧
    s.manager.state 1 = SessionState.kConnected.toNat ∧
    Prog.Exec Sending.anything (Sending.broadcast [4, 0, 2, 0] 0) ⟨s.manager, []⟩
      (.ok (true, s')) ∧
    s'.sent.count ([4, 0, 2, 0], 0) = 0 ∧ s'.sent.count ([4, 0, 2, 0], 1) = 1 := by
  have hplay : ((Holding.play (⟨.new 2, []⟩ : Holding 2)
      [.createSession, .createSession, .connectSession 0, .connectSession 1]).map fun s =>
        (s.manager.state 0, s.manager.state 1, (s.manager.session 0).handle_,
          (s.manager.session 1).handle_)) =
      some (SessionState.kConnected.toNat, SessionState.kConnected.toNat, 0, 1) := by decide +kernel
  obtain ⟨s, hs, hvals⟩ := Option.map_eq_some_iff.mp hplay
  simp only [Prod.mk.injEq] at hvals
  obtain ⟨h0, h1, hhandle0, hhandle1⟩ := hvals
  obtain ⟨releases, hreach⟩ := Holding.Reachable.start.play (fun w => by simp) hs
  have htotal : ∀ β t (q : Effect β), ∃ a, Sending.anything (N := 2) β t q a := fun β _ q => by
    cases q
    exact ⟨(s.manager.session 0, 0, true), trivial⟩
  obtain ⟨r, hr⟩ := Prog.exists_exec htotal (Sending.broadcast [4, 0, 2, 0] 0) ⟨s.manager, []⟩
  obtain ⟨s', rfl, hcount, -⟩ := broadcast_exact (by decide) hreach [4, 0, 2, 0] 0 r hr
  refine ⟨s, s', h0, h1, hr, ?_, ?_⟩
  · rw [hcount]
    simp [hhandle0]
  · rw [hcount]
    simp [h1, hhandle1]

end SessionManager

end ServerStudy
