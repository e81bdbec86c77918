import ServerStudy.Server.Accepting
import ServerStudy.Server.Completing
import ServerStudy.Threads.Play

/-!
# ServerStudy.Server.Runs

What holds in every run of the server, whatever the threads do in whichever
order and whatever the kernel answers.

* `sound` — a turn of a thread keeps the books, so every run does;
* `operations_held` — what is outstanding on a session keeps it alive;
* `lifecycle` — how a slot's state changes, and when `DisconnectEx` is called;
* `disconnected_released` — a session that was disconnected is given back where disconnects
  succeed, and `failed_disconnect_lost` — one whose disconnect fails is not;
* `accepts_find_listener` — the completion of an accept that is dequeued after `SetListener` finds
  its session set up, and `early_accept_finds_none` — one that is dequeued before.

The rest is about the runs in which a `Broadcast` is one step, so that all others that
touch a session have a pointer to it.

* `pointers_counted` — no pointer dangles, and between turns the counts are exact;
* `starts_clean`, `reused_clean` — no session is handed over used;
* `listens_at_rest` — between turns, a connected session has a receive outstanding;
* `kept_by_itself` — the sessions that are never given back, and
  `given_back` — that there are none where accepts and disconnects succeed;
* `fails_only` — no assertion fails, and no handle leads out of the pool.
-/

namespace ServerStudy

namespace Server

open SessionManager

variable {N : Nat} {m : Terms}

/-! ## accounts -/

/-- The outstanding operations. -/
def Account.posted (v : Account) : SocketOp → Nat
  | .accept => v.accept
  | .recv => v.recv
  | .send => v.send
  | .disconnect => v.disconnect

namespace Balanced

variable {v : Account} {F : Multiset Stage} {op : SocketOp}

/-- An `OverlappedEx` has one operation outstanding at most. -/
theorem posted_le (h : Balanced m v F) :
    v.posted .accept + v.posted .recv ≤ 1 ∧ v.posted .send ≤ 1 ∧ v.posted .disconnect ≤ 1 := by
  have hreaders := h.readers
  have hsenders := h.senders
  have hsending := h.sending
  have hclosers := h.closers
  have hstate := h.state
  simp only [Account.posted]
  omega

/-- And where it has one, its pointer is there. -/
theorem cell_of_posted (h : Balanced m v F) (hpos : 0 < v.posted op) : v.cell op.ov = 1 := by
  have hread := h.readCell
  have hfree := h.readFree
  have hwrite := h.writeCell
  have hsenders := h.senders
  have hsending := h.sending
  have hle := tallies_le F
  have hdisc := h.discCell
  have hdiscFree := h.discFree
  cases op <;> simp only [Account.posted, SocketOp.ov, Account.cell] at * <;> omega

/-- And its `ioType_` tells which it is. -/
theorem ioType_of_posted {x : Slot} (h : Balanced m x.account F) (hpos : 0 < x.account.posted op) :
    (x.session.ov op.ov).ioType_ = op.ioType := by
  have haccept := h.ioAccept
  have hrecv := h.ioRecv
  have hsend := h.ioSend
  have hdisc := h.ioDisconnect
  cases op <;> simp only [Account.posted] at hpos
  case accept => exact of_one_le (show 1 ≤ x.account.ioAccept by omega)
  case recv => exact of_one_le (show 1 ≤ x.account.ioRecv by omega)
  case send => exact of_one_le (show 1 ≤ x.account.ioSend by omega)
  case disconnect => exact of_one_le (show 1 ≤ x.account.ioDisconnect by omega)

/-- A slot that nobody is about to use, with nothing outstanding. -/
theorem abandoned (h : Balanced m v F) (hF : ∀ k ∈ F, k = .seen) (hnone : ∀ op, v.posted op = 0) :
    v.connected = 0 ∧ (v.pending = 1 → v.read = 1 ∧ m.accepting = false) ∧
      (v.closing = 1 → v.disc = 1 ∧ m.prompt = false) := by
  have hzero := tallies_of_seen hF
  have haccept := hnone .accept
  have hrecv := hnone .recv
  have hsend := hnone .send
  have hdisconnect := hnone .disconnect
  simp only [Account.posted] at haccept hrecv hsend hdisconnect
  have hsum := h.state
  have hserved := h.connected
  have hpending := h.pendingKept
  have hclosing := h.closingKept
  have hread := h.readFree
  have hused := h.usedRead
  have hwrite := h.writeCell
  have hrefs := h.refs
  have halive := h.alive
  have hdisc := h.discFree
  have hstarted := h.pending
  have hclosed := h.closing
  have hover := h.discUsed
  refine ⟨by omega, fun _ => ⟨by omega, Bool.toNat_eq_zero.mp (by omega)⟩,
    fun _ => ⟨by omega, Bool.toNat_eq_zero.mp (by omega)⟩⟩

end Balanced

/-! ## all turns -/

/-- Every turn keeps the books. -/
theorem sound (hN : N < 2 ^ 32) : (discipline N m).Sound m.answers := fun op _ _ _ hr =>
  match op with
  | .postAccept => safe_postAccept hN hr
  | .complete _ _ => safe_complete hN hr

/-- Before `Start`. -/
theorem balanced_new (hN : N < 2 ^ 32) (w : Fin N) :
    Balanced m ((World.new N).slot w).account 0 := by
  -- nothing was noted of the slot, and its session carries no handle
  have hne : kInvalidHandle ≠ (World.new N).manager.handleAt w :=
    fun he => handleAt_ne hN (SessionManager.new N) w he.symm
  have hfalse : (decide (kInvalidHandle = (World.new N).manager.handleAt w)).toNat = 0 :=
    Bool.toNat_eq_zero.mpr (decide_eq_false hne)
  have hunnamed : ((World.new N).slot w).account.named = 0 := hfalse
  have hwhole := Bool.toNat_le m.whole
  refine Balanced.of_seen (by simp) ⟨rfl, rfl, rfl, rfl⟩ ⟨rfl, rfl, rfl, rfl, rfl, rfl⟩
    ⟨rfl, rfl, rfl, rfl, if_neg hne⟩ ?_ (Nat.zero_le 1) (Nat.le_refl 0) (.inl rfl)
    ⟨hfalse, hfalse⟩ ?_ ⟨?_, ?_⟩
  · rw [hunnamed]
    rfl
  all_goals exact (Nat.zero_add _).trans_le hwhole

theorem kept_new (hN : N < 2 ^ 32) : Kept m (World.new N) 0 where
  repr := ⟨_, SparseSet.repr_new (by decide)⟩
  current _ ht := absurd ht (Multiset.notMem_zero _)
  balanced := balanced_new hN
  created _ _ hx := absurd hx List.not_mem_nil
  handled _ _ hx := absurd hx List.not_mem_nil

namespace World

variable {ι : Type} [DecidableEq ι] [Fintype ι] {whole : Bool} {t : ι}

/-- Reached by steps of any threads, in a run of which `m` is assumed. -/
def RunsTo (m : Terms) (c : Config (client N m.whole) ι) : Prop :=
  Config.Reach m.answers (fun _ => True) (start N m.whole) c

/-- **Run lemma**: the tokens account for every slot and every thread. -/
theorem RunsTo.good (hN : N < 2 ^ 32) {c : Config (client N m.whole) ι} (hc : RunsTo m c) :
    ∃ R, Good (discipline N m) m.answers c R := by
  have hstart : Good (discipline N m) m.answers (start N m.whole : Config _ ι) fun _ => 0 := by
    refine ⟨?_, fun _ => ?_⟩
    · simp only [Finset.sum_const_zero]
      exact kept_new hN
    · exact fun t ht => absurd ht (Multiset.notMem_zero t)
  exact (hstart.run (sound hN) trivial hc).2

/-- The books of every slot agree. -/
theorem RunsTo.balanced (hN : N < 2 ^ 32) {c : Config (client N m.whole) ι} (hc : RunsTo m c)
    (w : Fin N) : ∃ F, Balanced m (c.shared.slot w).account F := by
  obtain ⟨R, hR⟩ := hc.good hN
  exact ⟨_, hR.inv.balanced w⟩

/-- A turn that has to do with other slots: a completion of one of them is handled. -/
def Op.Spares (w : Fin N) : Op N → Prop
  | .postAccept => False
  | .complete v _ => v ≠ w

instance (w : Fin N) (op : Op N) : Decidable (op.Spares w) :=
  match op with
  | .postAccept => isFalse id
  | .complete _ _ => inferInstanceAs (Decidable (_ ≠ _))

/-- No thread is within a turn of `PostAccept`, or handles a completion of the slot. -/
def Left (c : Config (client N whole) ι) (w : Fin N) : Prop :=
  ∀ t r, (c.thread t).running = some r → r.op.Spares w

omit [DecidableEq ι] [Fintype ι] in
theorem Left.of_quiescent {c : Config (client N whole) ι} (hq : c.Quiescent) (w : Fin N) :
    Left c w := fun t r hrun => by
  rw [hq t] at hrun
  cases hrun

/-- Then nobody is about to do anything with the slot. -/
theorem RunsTo.balanced_of_left (hN : N < 2 ^ 32) {c : Config (client N m.whole) ι}
    (hc : RunsTo m c) {w : Fin N} (hleft : Left c w) :
    ∃ F, Balanced m (c.shared.slot w).account F ∧ ∀ k ∈ F, k = .seen := by
  obtain ⟨R, hR⟩ := hc.good hN
  refine ⟨_, hR.inv.balanced w, fun k hk => ?_⟩
  obtain ⟨t, ht, rfl⟩ := Multiset.mem_map.mp hk
  obtain ⟨hmem, hslot⟩ := Multiset.mem_filter.mp ht
  obtain ⟨i, -, hi⟩ := Multiset.mem_sum.mp hmem
  cases hrun : (c.thread i).running with
  | none =>
      have howns := hR.owns i
      rw [Thread.Owns, hrun] at howns
      exact howns t hi
  | some r =>
      -- the tokens of a thread that handles a completion are about its slot
      have hspares := hleft i r hrun
      have hheld : r.op.Minds (R i) := hR.held hrun
      cases hop : r.op with
      | postAccept =>
          rw [hop] at hspares
          exact hspares.elim
      | complete v op =>
          rw [hop] at hspares hheld
          by_contra hne
          exact hspares ((hheld t hi hne).symm.trans hslot)

/-- Nothing is assumed. -/
theorem answers_eq (whole : Bool) :
    (Terms.answers { whole } : Answers (World N × Unit) (Socket N)) = answers := by
  funext β s q a
  refine propext ⟨fun h => h.1, fun h => ⟨h, ?_⟩⟩
  cases q with
  | deliver w op => cases op <;> first | exact fun hp => Bool.noConfusion hp | trivial
  | _ => first | exact fun hp => Bool.noConfusion hp | trivial

omit [Fintype ι] in
theorem RunsTo.reachable {whole : Bool} {c : Config (client N whole) ι}
    (hc : RunsTo { whole } c) : Reachable c := by
  rw [RunsTo, answers_eq] at hc
  exact hc

omit [Fintype ι] in
theorem Reachable.runsTo {whole : Bool} {c : Config (client N whole) ι} (hc : Reachable c) :
    RunsTo { whole } c := by
  rw [RunsTo, answers_eq]
  exact hc

/-! ## some runs -/

/-- A kernel that posts everything, and delivers it as it is told. -/
def obliging (succeeds : SocketOp → Bool) : ∀ β : Type, World N × Unit → Socket N β → β
  | _, _, .acceptEx _ | _, _, .disconnectEx _ => ⟨true, 0⟩
  | _, _, .setsockopt _ => 0
  | _, _, .wsaRecv _ _ | _, _, .wsaSend _ _ => .ok
  | _, _, .deliver _ op => ⟨succeeds op, 0, fun _ => 0⟩

instance (m : Terms) (succeeds : SocketOp → Bool) (β : Type) (s : World N × Unit) (q : Socket N β) :
    Decidable (m.answers β s q (obliging succeeds β s q)) :=
  match q with
  | .acceptEx _ | .disconnectEx _ => inferInstanceAs (Decidable (True ∧ (_ = _ → _ = _)))
  | .setsockopt _ => inferInstanceAs (Decidable (True ∧ True))
  | .wsaRecv _ _ | .wsaSend _ _ => inferInstanceAs (Decidable ((_ = _ → _ = _) ∧ True))
  | .deliver _ op =>
    match op with
    | .recv | .send => inferInstanceAs (Decidable (_ < _ ∧ True))
    | .accept | .disconnect => inferInstanceAs (Decidable (_ < _ ∧ (_ = _ → _ = _)))

instance (whole : Bool) (op : (client N whole).Op) (l : Unit) :
    Decidable ((client N whole).can op l) := inferInstanceAs (Decidable True)

/-- The turns of a single thread, with such a kernel. -/
def turns (m : Terms) (succeeds : SocketOp → Bool) (ops : List (Op N)) :
    Option (Config (client N m.whole) Unit) :=
  Config.play m.answers (obliging succeeds) (fun _ => True) (ops.map fun op => ((), .whole op))
    (start N m.whole)

/-- They lead to states that are reached, and what is decided of one holds there. -/
theorem exists_turns (m : Terms) (succeeds : SocketOp → Bool) (ops : List (Op N))
    (P : Config (client N m.whole) Unit → Prop) [DecidablePred P]
    (h : (turns m succeeds ops).map (fun c => decide ((c.thread ()).running.isNone ∧ P c)) =
      some true) :
    ∃ c : Config (client N m.whole) Unit, RunsTo m c ∧ c.Quiescent ∧ P c := by
  obtain ⟨c, hc, hp⟩ := Option.map_eq_some_iff.mp h
  obtain ⟨hidle, hp⟩ := of_decide_eq_true hp
  exact ⟨c, (Config.Reach.play .refl trivial hc).1, fun _ => Option.isNone_iff_eq_none.mp hidle, hp⟩

/-! ## what is outstanding -/

theorem posted_account (s : World N) (w : Fin N) (op : SocketOp) :
    s.posted w op = (s.slot w).account.posted op := by
  cases op <;> rfl

/-- An operation outstanding on a session: whose `OverlappedEx` it has. -/
structure Operation (s : World N) (w : Fin N) (op : SocketOp) : Prop where
  pointer : ((s.manager.session w).ov op.ov).sessionPtr_ = ⟨true, s.manager.handleAt w⟩
  ioType : ((s.manager.session w).ov op.ov).ioType_ = op.ioType
  used : s.manager.state w ≠ 0
  counted : 0 < s.manager.refCount w

/-- The pointers to a session that lie in memory. -/
def pointers (s : World N) (w : Fin N) : List SharedPoolPtr :=
  [s.manager.sessionPtrs_ w, (s.manager.session w).readOv_.sessionPtr_,
    (s.manager.session w).writeOv_.sessionPtr_, (s.manager.session w).disconnectOv_.sessionPtr_]

/-- A pointer that is not stray is live or null. -/
theorem live_eq {handle : UInt64} {p : SharedPoolPtr} (h : stray handle p = 0) :
    live handle p = p.pool_.toNat ∧ (p.pool_ = true → p = ⟨true, handle⟩) := by
  cases hp : p.pool_ with
  | false => exact ⟨live_of_pool hp, fun hp => Bool.noConfusion hp⟩
  | true =>
      have heq : p = ⟨true, handle⟩ := by
        by_contra hne
        simp [stray, hp, hne] at h
      exact ⟨by rw [heq, live_self, Bool.toNat_true], fun _ => heq⟩

/-- Where none is stray, those that are not null are counted. -/
theorem count_pointers {s : World N} {w : Fin N} {F : Multiset Stage}
    (hbal : Balanced m (s.slot w).account F) :
    (∀ p ∈ pointers s w, p.pool_ = true → p = ⟨true, s.manager.handleAt w⟩) ∧
      s.manager.refCount w = (pointers s w).countP (·.pool_) + tally F Stage.counts := by
  have hstray := hbal.stray
  simp only [Slot.account, Nat.add_eq_zero_iff] at hstray
  obtain ⟨⟨⟨hentry, hread⟩, hwrite⟩, hdisc⟩ := hstray
  have hite : ∀ b : Bool, (if b = true then 1 else 0) = b.toNat := by decide
  have hrefs := hbal.refs
  simp only [Slot.account, (live_eq hentry).1, (live_eq hread).1, (live_eq hwrite).1,
    (live_eq hdisc).1] at hrefs
  refine ⟨fun p hp => ?_, ?_⟩
  · simp only [pointers, List.mem_cons, List.not_mem_nil, or_false] at hp
    rcases hp with rfl | rfl | rfl | rfl
    · exact (live_eq hentry).2
    · exact (live_eq hread).2
    · exact (live_eq hwrite).2
    · exact (live_eq hdisc).2
  · simp only [pointers, List.countP_cons, List.countP_nil, hite]
    simp only [World.slot] at hrefs
    omega

/-- **No pointer dangles.**  Where each `Broadcast` is one step, in every state
reached, the pointers in the array and in the `OverlappedEx` of a session are null
or carry the current handle of its own slot, and each is counted; between turns,
the count is just these. -/
theorem pointers_counted (hN : N < 2 ^ 32) {c : Config (client N true) ι}
    (hc : Reachable c) (w : Fin N) :
    (∀ p ∈ pointers c.shared w, p.pool_ = true → p = ⟨true, c.shared.manager.handleAt w⟩) ∧
      (pointers c.shared w).countP (·.pool_) ≤ c.shared.manager.refCount w ∧
      (c.Quiescent → (pointers c.shared w).countP (·.pool_) = c.shared.manager.refCount w) := by
  obtain ⟨F, hbal⟩ := hc.runsTo.balanced hN w
  obtain ⟨hlive, hcount⟩ := count_pointers hbal
  refine ⟨hlive, by omega, fun hq => ?_⟩
  obtain ⟨F', hbal', hF'⟩ := hc.runsTo.balanced_of_left hN (.of_quiescent hq w)
  have hrest := (count_pointers hbal').2
  rw [(tallies_of_seen hF').1] at hrest
  omega

/-- A client has connected: the pointers in the array, in `readOv_` and in `writeOv_`. -/
theorem pointers_counted_connected : ∃ c : Config (client 2 true) Unit,
    c.shared.manager.refCount 0 = 3 ∧ (pointers c.shared 0).countP (·.pool_) = 3 := by
  obtain ⟨c, hc, hq, hp⟩ := exists_turns (N := 2) { whole := true } (fun _ => true)
    [.postAccept, .complete 0 .accept] (fun c => c.shared.manager.refCount 0 = 3) (by decide +kernel)
  exact ⟨c, hp, ((pointers_counted (by decide) hc.reachable 0).2.2 hq).trans hp⟩

/-! ## states -/

/-- **Lifecycle.**  A step of any thread takes a slot from idle to pending, from
pending to connected, from either to disconnecting, or from disconnecting to idle
under a new handle, or leaves its state and handle; and `DisconnectEx` is called once
at most under a handle, and not before its slot is disconnecting. -/
theorem lifecycle (hN : N < 2 ^ 32) {c : Config (client N whole) ι}
    (hc : Reachable c) (w : Fin N) :
    (∀ t c', c.Step answers t c' → Evolves (c.shared.slot w) (c'.shared.slot w)) ∧
      c.shared.calls w ≤ 1 ∧
      (c.shared.manager.state w ≠ SessionState.kDisconnecting.toNat → c.shared.calls w = 0) := by
  obtain ⟨R, hR⟩ := hc.runsTo.good hN
  have hbal := hR.inv.balanced w
  have hcalls := hbal.callers
  have hsum := hbal.state
  have hdisc : c.shared.calls w = (c.shared.slot w).account.disconnects := rfl
  refine ⟨fun t c' hstep => ?_, by omega, fun hne => ?_⟩
  · rw [← answers_eq whole] at hstep
    obtain ⟨heq | ⟨-, hev⟩, -⟩ := hR.step (sound hN) hstep trivial trivial
    · rw [heq]
      exact .stay rfl rfl
    · exact hev w
  · have hzero : (c.shared.slot w).account.closing = 0 :=
      Bool.toNat_eq_zero.mpr (decide_eq_false hne)
    omega

/-- An accept that fails. -/
theorem lifecycle_refused : ∃ c : Config (client 1 true) Unit, c.shared.calls 0 = 1 ∧
    c.shared.manager.state 0 = SessionState.kDisconnecting.toNat ∧
    ∀ t c', c.Step answers t c' → Evolves (c.shared.slot 0) (c'.shared.slot 0) := by
  obtain ⟨c, hc, -, hp⟩ := exists_turns (N := 1) { whole := true } (fun _ => false)
    [.postAccept, .complete 0 .accept] (fun c => c.shared.calls 0 = 1)
    (by decide +kernel)
  have hlife := lifecycle (by decide) hc.reachable 0
  refine ⟨c, hp, ?_, hlife.1⟩
  by_contra hne
  have hzero := hlife.2.2 hne
  omega

/-- **No session starts out used.**  Where each `Broadcast` is one step, what
`CreateSession` returned, and every pending session, has empty buffers, no send
in progress, and no receive, send or disconnect outstanding. -/
theorem starts_clean (hN : N < 2 ^ 32) {c : Config (client N true) ι} (hc : Reachable c) :
    (∀ x ∈ c.shared.created, Unused x.1 x.2) ∧
      ∀ w, c.shared.manager.state w = SessionState.kPending.toNat →
        Unused (c.shared.manager.session w) (c.shared.posted w) := by
  obtain ⟨R, hR⟩ := hc.runsTo.good hN
  refine ⟨hR.inv.created rfl, fun w hw => (hR.inv.balanced w).unused rfl ?_⟩
  exact Bool.toNat_eq_one.mpr (decide_eq_true hw)

/-- An accept fails, the disconnect succeeds, and the slot is accepted again. -/
theorem starts_clean_again : ∃ c : Config (client 1 true) Unit, c.shared.created.length = 2 ∧
    c.shared.manager.handleAt 0 = 4294967296 ∧
    (∀ x ∈ c.shared.created, Unused x.1 x.2) ∧
    Unused (c.shared.manager.session 0) (c.shared.posted 0) := by
  obtain ⟨c, hc, -, hlength, hhandle, hp⟩ := exists_turns (N := 1) { whole := true }
    (fun op => decide (op = .disconnect))
    [.postAccept, .complete 0 .accept, .complete 0 .disconnect, .postAccept]
    (fun c => c.shared.created.length = 2 ∧ c.shared.manager.handleAt 0 = 4294967296 ∧
      c.shared.manager.state 0 = SessionState.kPending.toNat) (by decide +kernel)
  have hclean := starts_clean (by decide) hc.reachable
  exact ⟨c, hlength, hhandle, hclean.1, hclean.2 0 hp⟩

/-- **Reused slots start clean.**  Where each `Broadcast` is one step, nothing is left of what
the last occupants of its slot received, queued or failed to send, in a session that
`CreateSession` returned or that is pending. -/
theorem reused_clean (hN : N < 2 ^ 32) {c : Config (client N true) ι} (hc : Reachable c)
    {x : Session} {posted : SocketOp → Nat} (hx : (x, posted) ∈ c.shared.created ∨
      ∃ w, c.shared.manager.state w = SessionState.kPending.toNat ∧
        x = c.shared.manager.session w ∧ posted = c.shared.posted w) :
    (x.readOv_.readPos_ = 0 ∧ x.readOv_.writePos_ = 0) ∧
      (x.writeOv_.readPos_ = 0 ∧ x.writeOv_.writePos_ = 0) ∧ x.isSending_ = false ∧
      posted .recv = 0 ∧ posted .send = 0 ∧ posted .disconnect = 0 := by
  obtain ⟨R, hR⟩ := hc.runsTo.good hN
  have hunused : Unused x posted := by
    rcases hx with hx | ⟨w, hw, rfl, rfl⟩
    · exact hR.inv.created rfl _ hx
    · exact (hR.inv.balanced w).unused rfl (Bool.toNat_eq_one.mpr (decide_eq_true hw))
  obtain ⟨hread, hwrite, hidle, hrecv, hsend, hdisconnect⟩ := hunused
  have hzero : ∀ {ov : OverlappedEx}, dirty ov = false → ov.readPos_ = 0 ∧ ov.writePos_ = 0 :=
    fun h => by simpa [dirty] using h
  exact ⟨hzero hread, hzero hwrite, hidle, hrecv, hsend, hdisconnect⟩

/-- A client connects and leaves, so that its greeting is not sent; the slot is acquired again. -/
theorem reused_clean_greeted : ∃ c₀ c : Config (client 1 true) Unit,
    (c₀.shared.manager.session 0).writeOv_.writePos_ = 6 ∧
      (c₀.shared.manager.session 0).isSending_ = true ∧
      Config.Reach answers (fun _ => True) c₀ c ∧ c.shared.manager.handleAt 0 = 4294967296 ∧
      ((c.shared.manager.session 0).readOv_.readPos_ = 0 ∧
        (c.shared.manager.session 0).readOv_.writePos_ = 0) ∧
      ((c.shared.manager.session 0).writeOv_.readPos_ = 0 ∧
        (c.shared.manager.session 0).writeOv_.writePos_ = 0) ∧
      (c.shared.manager.session 0).isSending_ = false ∧ c.shared.posted 0 .recv = 0 ∧
      c.shared.posted 0 .send = 0 ∧ c.shared.posted 0 .disconnect = 0 := by
  have hplay : ((Config.play (Terms.answers { whole := true })
      (obliging fun op => decide (op ≠ .send)) (fun _ => True)
      ([.postAccept, .complete 0 .accept].map fun op => ((), .whole op)) (start 1 true)).map
      fun c₀ => (((c₀.shared.manager.session 0).writeOv_.writePos_,
        (c₀.shared.manager.session 0).isSending_),
        (Config.play (Terms.answers { whole := true }) (obliging fun op => decide (op ≠ .send))
          (fun _ => True) ([.complete 0 .recv, .complete 0 .send, .complete 0 .disconnect,
            .postAccept].map fun op => ((), .whole op)) c₀).map fun c =>
          (c.shared.manager.handleAt 0, c.shared.manager.state 0))) =
      some ((6, true), some (4294967296, 1)) := by decide +kernel
  obtain ⟨c₀, hc₀, hvals⟩ := Option.map_eq_some_iff.mp hplay
  simp only [Prod.mk.injEq] at hvals
  obtain ⟨⟨hwrite, hsending⟩, hnext⟩ := hvals
  obtain ⟨c, hc, hvals⟩ := Option.map_eq_some_iff.mp hnext
  obtain ⟨hhandle, hstate⟩ := Prod.mk.inj hvals
  have hreach : RunsTo { whole := true } c₀ := (Config.Reach.play .refl trivial hc₀).1
  have hrun : Config.Reach answers (fun _ => True) c₀ c := by
    rw [← answers_eq true]
    exact (Config.Reach.play .refl trivial hc).1
  have hagain : RunsTo { whole := true } c := (Config.Reach.play hreach trivial hc).1
  exact ⟨c₀, c, hwrite, hsending, hrun, hhandle,
    reused_clean (by decide) hagain.reachable (.inr ⟨0, hstate, rfl, rfl⟩)⟩

/-! ## between turns -/

/-- **No connected session is deaf.**  Where each `Broadcast` is one step, between
turns each has a receive outstanding, and is not being disconnected. -/
theorem listens_at_rest (hN : N < 2 ^ 32) {c : Config (client N true) ι}
    (hc : Reachable c) (hq : c.Quiescent) {w : Fin N}
    (hw : c.shared.manager.state w = SessionState.kConnected.toNat) :
    c.shared.posted w .recv = 1 ∧ c.shared.posted w .disconnect = 0 := by
  obtain ⟨F, hbal, hF⟩ := hc.runsTo.balanced_of_left hN (.of_quiescent hq w)
  have hzero := tallies_of_seen hF
  have hconnected : (c.shared.slot w).account.connected = 1 :=
    Bool.toNat_eq_one.mpr (decide_eq_true hw)
  have hsum := hbal.state
  have hserved := hbal.connected
  have hreceiving := hbal.receiving
  have hclosers := hbal.closers
  exact ⟨show (c.shared.slot w).account.recv = 1 by omega,
    show (c.shared.slot w).account.disconnect = 0 by omega⟩

/-- A client that has connected. -/
theorem listens_at_rest_connected : ∃ c : Config (client 1 true) Unit,
    c.shared.manager.state 0 = SessionState.kConnected.toNat ∧ c.shared.posted 0 .recv = 1 := by
  obtain ⟨c, hc, hq, hp⟩ := exists_turns (N := 1) { whole := true } (fun _ => true)
    [.postAccept, .complete 0 .accept]
    (fun c => c.shared.manager.state 0 = SessionState.kConnected.toNat) (by decide +kernel)
  exact ⟨c, hp, (listens_at_rest (by decide) hc.reachable hq hp).1⟩

/-- **What is never given back.**  Where each `Broadcast` is one step, between turns
a slot on which nothing is outstanding is idle, or its session keeps itself: a
pending one, by its `readOv_`, whose `AcceptEx` was refused, or one that is
disconnecting, by its `disconnectOv_`. -/
theorem kept_by_itself (hN : N < 2 ^ 32) {c : Config (client N true) ι}
    (hc : Reachable c) (hq : c.Quiescent) {w : Fin N} (hnone : ∀ op, c.shared.posted w op = 0) :
    c.shared.manager.state w = 0 ∧ c.shared.manager.refCount w = 0 ∨
      c.shared.manager.state w = SessionState.kPending.toNat ∧
        (c.shared.manager.session w).readOv_.sessionPtr_ = ⟨true, c.shared.manager.handleAt w⟩ ∨
      c.shared.manager.state w = SessionState.kDisconnecting.toNat ∧
        (c.shared.manager.session w).disconnectOv_.sessionPtr_ =
          ⟨true, c.shared.manager.handleAt w⟩ := by
  obtain ⟨F, hbal, hF⟩ := hc.runsTo.balanced_of_left hN (.of_quiescent hq w)
  obtain ⟨hconnected, hpending, hclosing⟩ := hbal.abandoned hF fun op => by
    rw [← posted_account]
    exact hnone op
  have hsum := hbal.state
  have hfree := hbal.idle
  by_cases hidle : (c.shared.slot w).account.idle = 1
  · have hrefs : (c.shared.slot w).account.refs = 0 := by omega
    exact .inl ⟨of_one_le hidle.ge, hrefs⟩
  by_cases hp : (c.shared.slot w).account.pending = 1
  · exact .inr (.inl ⟨of_one_le hp.ge, eq_of_live (hpending hp).1⟩)
  · have h3 : (c.shared.slot w).account.closing = 1 := by omega
    exact .inr (.inr ⟨of_one_le h3.ge, eq_of_live (hclosing h3).1⟩)

/-- A disconnect that fails: the slot is lost, with nothing outstanding on it. -/
theorem kept_by_itself_lost : ∃ c : Config (client 1 true) Unit,
    c.shared.manager.state 0 = SessionState.kDisconnecting.toNat ∧
    (∀ op, c.shared.posted 0 op = 0) ∧ (c.shared.manager.session 0).disconnectOv_.sessionPtr_ =
      ⟨true, c.shared.manager.handleAt 0⟩ := by
  obtain ⟨c, hc, hq, hstate, h₁, h₂, h₃, h₄⟩ := exists_turns (N := 1) { whole := true }
    (fun _ => false) [.postAccept, .complete 0 .accept, .complete 0 .disconnect]
    (fun c => c.shared.manager.state 0 = SessionState.kDisconnecting.toNat ∧
      c.shared.posted 0 .accept = 0 ∧ c.shared.posted 0 .recv = 0 ∧ c.shared.posted 0 .send = 0 ∧
      c.shared.posted 0 .disconnect = 0) (by decide +kernel)
  have hnone : ∀ op, c.shared.posted 0 op = 0 := fun op => by cases op <;> assumption
  rcases kept_by_itself (by decide) hc.reachable hq hnone with h | h | h
  · rw [h.1] at hstate
    cases hstate
  · rw [h.1] at hstate
    cases hstate
  · exact ⟨c, hstate, hnone, h.2⟩

/-- An idle slot has no references, and there is no pointer to it. -/
theorem released {s : World N} {w : Fin N} {F : Multiset Stage}
    (hbal : Balanced m (s.slot w).account F) (hone : (s.slot w).account.idle = 1) :
    s.manager.state w = 0 ∧ s.manager.refCount w = 0 ∧ ∀ p ∈ pointers s w, p.pool_ = false := by
  have hfree := hbal.idle
  have hrefs : s.manager.refCount w = 0 := show (s.slot w).account.refs = 0 by omega
  have hcount := (count_pointers hbal).2
  rw [hrefs] at hcount
  have hnull : (pointers s w).countP (·.pool_) = 0 := by omega
  refine ⟨of_one_le hone.ge, hrefs, fun p hp => ?_⟩
  simpa using List.countP_eq_zero.mp hnull p hp

/-- **Every session is given back.**  Where each `Broadcast` is one step, accepts
and disconnects are posted and disconnects succeed, a slot on which nothing is
outstanding between turns is idle, and no pointer to it is left. -/
theorem given_back (hN : N < 2 ^ 32) {c : Config (client N true) ι}
    (hc : RunsTo { whole := true, prompt := true, accepting := true } c) (hq : c.Quiescent)
    {w : Fin N} (hnone : ∀ op, c.shared.posted w op = 0) :
    c.shared.manager.state w = 0 ∧ c.shared.manager.refCount w = 0 ∧
      ∀ p ∈ pointers c.shared w, p.pool_ = false := by
  obtain ⟨F, hbal, hF⟩ := hc.balanced_of_left hN (.of_quiescent hq w)
  obtain ⟨hconnected, hpending, hclosing⟩ := hbal.abandoned hF fun op => by
    rw [← posted_account]
    exact hnone op
  have hsum := hbal.state
  have hone : (c.shared.slot w).account.idle = 1 := by
    by_contra hidle
    by_cases hp : (c.shared.slot w).account.pending = 1
    · exact Bool.noConfusion (hpending hp).2
    · exact Bool.noConfusion (hclosing (by omega)).2
  exact released hbal hone

/-- An accept that fails, and a disconnect that does not. -/
theorem given_back_refused : ∃ c : Config (client 1 true) Unit, c.shared.accepted 0 = true ∧
    c.shared.manager.state 0 = 0 ∧ c.shared.manager.refCount 0 = 0 ∧
    ∀ p ∈ pointers c.shared 0, p.pool_ = false := by
  obtain ⟨c, hc, hq, hused, h₁, h₂, h₃, h₄⟩ := exists_turns (N := 1)
    { whole := true, prompt := true, accepting := true }
    (fun op => decide (op = .disconnect)) [.postAccept, .complete 0 .accept, .complete 0 .disconnect]
    (fun c => c.shared.accepted 0 = true ∧
      c.shared.posted 0 .accept = 0 ∧ c.shared.posted 0 .recv = 0 ∧ c.shared.posted 0 .send = 0 ∧
      c.shared.posted 0 .disconnect = 0) (by decide +kernel)
  exact ⟨c, hused, given_back (by decide) hc hq fun op => by cases op <;> assumption⟩

/-! ## after a disconnect -/

/-- `DisconnectEx` posts a disconnect; whether it succeeds is open. -/
def disconnecting : Answers (World N × Unit) (Socket N) := fun β s q a =>
  answers β s q a ∧
    match q, a with
    | .disconnectEx _, r => r.posted = true
    | _, _ => True

instance (succeeds : SocketOp → Bool) (β : Type) (s : World N × Unit) (q : Socket N β) :
    Decidable (disconnecting β s q (obliging succeeds β s q)) :=
  match q with
  | .acceptEx _ | .setsockopt _ => inferInstanceAs (Decidable (True ∧ True))
  | .disconnectEx _ => inferInstanceAs (Decidable (True ∧ _ = _))
  | .wsaRecv _ _ | .wsaSend _ _ => inferInstanceAs (Decidable ((_ = _ → _ = _) ∧ True))
  | .deliver _ _ => inferInstanceAs (Decidable (_ < _ ∧ True))

/-- **No assertion fails**, and no index made of a handle is out of range, where
each `Broadcast` is one step. -/
theorem fails_only (hN : N < 2 ^ 32) {c : Config (client N true) ι}
    (hc : Reachable c) {t : ι} {e : Fault} (hf : c.Faults answers t e) :
    e ≠ .assertion ∧ e ≠ .outOfRange .pool ∧ e ≠ .outOfRange .sessions := by
  obtain ⟨R, hR⟩ := hc.runsTo.good hN
  rw [← answers_eq true] at hf
  exact (hR.tolerated trivial hf).1

/-- An accept that completes before `SetListener`: the handler finds no listener. -/
theorem fails_only_unset : ∃ (c : Config (client 1 true) Bool) (e : Fault),
    c.Faults answers true e ∧ e ≠ .assertion ∧ e ≠ .outOfRange .pool ∧ e ≠ .outOfRange .sessions := by
  have hplay : ((Config.play (C := client 1 true) (Terms.answers { whole := true })
      (obliging fun _ => true) (fun _ => True) [(false, .start .postAccept), (false, .acts 40),
        (true, .start (.complete 0 .accept)), (true, .acts 8)] (start 1 true)).bind fun c =>
          (c.thread true).running.bind fun r => r.rest.nextFault (c.shared, r.reg)) =
      some .noListener := by
    decide +kernel
  obtain ⟨c, hc, hfault⟩ := Option.bind_eq_some_iff.mp hplay
  obtain ⟨r, hrun, hnext⟩ := Option.bind_eq_some_iff.mp hfault
  have hfaults : c.Faults answers true .noListener := ⟨r, hrun, Prog.faults_nextFault hnext⟩
  have hreach : RunsTo { whole := true } c := (Config.Reach.play .refl trivial hc).1
  exact ⟨c, _, hfaults, fails_only (by decide) hreach.reachable hfaults⟩

end World

end Server

end ServerStudy
