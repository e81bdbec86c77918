import ServerStudy.Server.Receiving

/-!
# ServerStudy.Server.Relaying

`Broadcast` and the handlers that call it, by a thread that is at work on some
slot: it keeps the books of all slots, and its own business as it is.

The loop sends to slots that were connected when the snapshot was taken, and may
be anybody's by the time their turn comes; what the thread knows of them, and
what nobody takes back, is that they were used.

* `Calm` — a program that needs none of the thread's tokens and leaves them;
* `calm_broadcastLoop` — the loop, one `SendPacket` after the other;
* `wp_broadcast` — all of it as one step, where the sessions stay connected;
* `Triple.execute` — `PacketHandler::Execute`.
-/

namespace ServerStudy

namespace Server

open SessionManager

variable {N : Nat} {m : Terms} {s s' s'' : World N} {v w : Fin N} {h : UInt64}
  {ks : Multiset Stage} {R r : Multiset (Token N)} {α β : Type}

/-! ## one slot of many -/

/-- No slot changes its state or its generation. -/
def Steady (s s' : World N) : Prop :=
  ∀ u, s'.manager.state u = s.manager.state u ∧ s'.manager.handleAt u = s.manager.handleAt u

theorem Steady.refl (s : World N) : Steady s s := fun _ => ⟨rfl, rfl⟩

theorem Steady.trans (h : Steady s s') (h' : Steady s' s'') : Steady s s'' := fun u =>
  ⟨(h' u).1.trans (h u).1, (h' u).2.trans (h u).2⟩

theorem Steady.evolves (h : Steady s s') (u : Fin N) : Evolves (s.slot u) (s'.slot u) :=
  .stay (h u).1 (h u).2

theorem Becomes.steady {x : Account} (hb : Becomes v s s' x) : Steady s s' := fun u => by
  by_cases hu : u = v
  · rw [hu]
    exact ⟨hb.state, hb.handle⟩
  · exact ⟨congrArg Slot.state (hb.touch.other u hu), congrArg Slot.handle (hb.touch.other u hu)⟩

theorem Kept.becomes {x : Account} (hk : Kept m s R) (hb : Becomes v s s' x)
    (hbal : Balanced m x (stagesAt R v)) : Kept m s' R := by
  refine ⟨hb.touch.repr, fun t hmem hne => ?_, fun u => ?_,
    fun hwhole => hb.touch.history.1 ▸ hk.created hwhole,
    fun hp => hb.touch.history.2 ▸ hk.handled hp⟩
  · rw [(hb.steady t.slot).2]
    exact hk.current t hmem hne
  · by_cases hu : u = v
    · rw [hu, hb.account]
      exact hbal
    · rw [hb.touch.other u hu]
      exact hk.balanced u

/-- Where a `Broadcast` is not one step, nothing is asked of what is sent on. -/
theorem Balanced.in_use_of_parts {x : Account} {F : Multiset Stage} (h : Balanced m x F)
    (hwhole : m.whole = false) : InUse m x F := by
  have hreleasing := h.releasing
  rw [InUse, hwhole, Bool.toNat_false]
  omega

/-- A connected session is not being released. -/
theorem Balanced.in_use_of_connected {x : Account} {F : Multiset Stage} (h : Balanced m x F)
    (hx : x.connected = 1) : InUse m x F := by
  have hreleasing := h.releasing
  have hone := h.wholeOne
  rw [InUse]
  omega

/-- `SendPacket` keeps the books. -/
theorem Kept.wp_sendPacket (hN : N < 2 ^ 32) (hk : Kept m s R)
    (hused : (s.slot v).account.accepted = 1) (huse : InUse m (s.slot v).account (stagesAt R v))
    (packet : List UInt8) (handle : UInt64) :
    Prog.wp m.answers (Tolerated m) (send (World.port N) packet handle v)
      (fun _ x => Kept m x.1 R ∧ Steady s x.1) (s, ()) :=
  Prog.wp_mono (fun _ x hx => by
    obtain ⟨y, hb, hbal⟩ := hx
    exact ⟨hk.becomes hb hbal, hb.steady⟩)
    (Server.wp_sendPacket hN hk.repr (hk.balanced v) hused huse packet)

/-- What may lie in the array: nothing, or a pointer to the slot. -/
theorem Kept.entry (hN : N < 2 ^ 32) (hk : Kept m s R) (v : Fin N)
    (hp : (s.manager.sessionPtrs_ v).pool_ = true) :
    (whoOf (s.manager.sessionPtrs_ v).handle_).toNat = v := by
  have hone := (hk.balanced v).entryOne
  by_cases he : (s.slot v).account.entry = 1
  · have hptr : s.manager.sessionPtrs_ v = ⟨true, s.manager.handleAt v⟩ := Slot.live_entry he
    rw [hptr, SessionManager.toNat_whoOf hN s.manager v]
  · have hnull := Slot.null_entry (hk.balanced v).stray (by omega)
    exact absurd (hnull.symm.trans hp) Bool.false_ne_true

/-! ## programs that need no tokens -/

/-- `p` keeps the books with the thread's tokens as they are, and returns an `a`
such that `Q a`. -/
def Calm (m : Terms) (w : Fin N) (r : Multiset (Token N))
    (p : Prog (World N × Unit) (Socket N) Fault α) (Q : α → Prop) : Prop :=
  Safe (discipline N m) m.answers (About w) p (fun a _ r' => r' = r ∧ Q a) () r

theorem Calm.bind {p : Prog (World N × Unit) (Socket N) Fault α} {Q : α → Prop}
    {f : α → Prog (World N × Unit) (Socket N) Fault β} {Q' : β → Prop} (hp : Calm m w r p Q)
    (hf : ∀ a, Q a → Calm m w r (f a) Q') : Calm m w r (p.bind f) Q' :=
  Safe.bind (Safe.mono (fun _ h => h) (fun a _ r' hq => by
    obtain ⟨rfl, hq⟩ := hq
    exact hf a hq) hp)

section Rules

variable {p : Prog (World N × Unit) (Socket N) Fault α} {Q : α → Prop} (hr : About w r)
include hr

theorem Calm.done {a : α} (hq : Q a) : Calm m w r (.done a) Q := ⟨hr, rfl, hq⟩

theorem Calm.fault {e : Fault} (he : Tolerated m e) : Calm m w r (Prog.fault e : Prog _ _ _ α) Q :=
  ⟨hr, fun _ _ _ _ => he⟩

theorem Calm.read {f : World N × Unit → α}
    (hf : ∀ s F, Kept m s (r + F) → Q (f (s, ()))) : Calm m w r (Prog.read f) Q :=
  ⟨hr, fun s F _ hk _ => ⟨fun _ => .stay rfl rfl, r, hk, hr, rfl, hf s F hk⟩⟩

/-- A method that is one section. -/
theorem Calm.locked {q : Prog (World N × Unit) (Socket N) Fault α} (hpq : p = Prog.atomically q)
    (hp : ∀ s F, Kept m s (r + F) → Prog.wp m.answers (Tolerated m) p
      (fun a x => Kept m x.1 (r + F) ∧ Steady s x.1 ∧ Q a) (s, ())) : Calm m w r p Q := by
  subst hpq
  exact Safe.atomically hr fun s F _ hk =>
    Prog.wp_mono (fun _ _ hx _ => ⟨hx.2.1.evolves, r, hx.1, hr, rfl, hx.2.2⟩) (hp s F hk)

/-- The slot of a handle. -/
theorem calm_slot {handle : UInt64} (hv : (whoOf handle).toNat = v) :
    Calm m w r (SessionManager.slot handle : Prog _ _ _ (Fin N)) (fun u => u = v) := by
  have hlt : (whoOf handle).toNat < N := hv ▸ v.isLt
  unfold SessionManager.slot
  rw [dif_pos hlt]
  exact Calm.read hr fun _ _ _ => Fin.ext hv

/-- `IsValid` of any pointer. -/
theorem calm_isValid (p : SharedPoolPtr) :
    Calm m w r (SharedPoolPtr.isValid (pool (World.port N)) p) (fun b => b = true → p.pool_ = true) := by
  unfold SharedPoolPtr.isValid
  cases p.pool_ with
  | false => exact Calm.done hr fun hb => hb
  | true => exact Calm.read hr fun _ _ _ _ => rfl

/-- `operator->` of a pointer that leads to a slot, if anywhere. -/
theorem calm_deref {p : SharedPoolPtr} (hp : p.pool_ = true → (whoOf p.handle_).toNat = v) :
    Calm m w r (deref (World.port N) p) (fun u => u = v) := by
  refine (calm_isValid hr p).bind fun b hb => ?_
  cases b with
  | false => exact Calm.fault hr (tolerated_of_ne (by decide))
  | true =>
      refine (Calm.read hr (Q := fun _ => True) fun _ _ _ => trivial).bind fun b' _ => ?_
      cases b' with
      | false => exact Calm.fault hr (tolerated_of_ne (by decide))
      | true => exact calm_slot hr (hp (hb rfl))

end Rules

/-! ## the loop, turn by turn -/

/-- The thread knows that a slot was used. -/
def Knows (r : Multiset (Token N)) (v : Fin N) : Prop := ∃ t ∈ r, t.slot = v ∧ t.stage = .seen

theorem Kept.accepted_of_knows {F : Multiset (Token N)} (hk : Kept m s (r + F))
    (hv : Knows r v) : (s.slot v).account.accepted = 1 := by
  obtain ⟨t, ht, rfl, hstage⟩ := hv
  have hmem : Stage.seen ∈ stagesAt (r + F) t.slot :=
    hstage ▸ mem_stagesAt (Multiset.mem_add.mpr (.inl ht))
  have hpos := tally_pos (p := Stage.past) hmem rfl
  have hp := (hk.balanced t.slot).acceptedPast
  omega

/-- `SendPacket` to the session in a slot that was used. -/
theorem calm_send (hN : N < 2 ^ 32) (hwhole : m.whole = false) (hr : About w r) (hv : Knows r v)
    (packet : List UInt8) (handle : UInt64) :
    Calm m w r (send (World.port N) packet handle v) (fun _ => True) :=
  Calm.locked hr rfl fun _ _ hk => Prog.wp_mono (fun _ _ hx => ⟨hx.1, hx.2, trivial⟩)
    (hk.wp_sendPacket hN (hk.accepted_of_knows hv) ((hk.balanced v).in_use_of_parts hwhole) packet
      handle)

/-- A turn, for a slot that was used. -/
theorem calm_sendTo (hN : N < 2 ^ 32) (hwhole : m.whole = false) (hr : About w r)
    {handle : UInt64} (packet : List UInt8) (hv : (whoOf handle).toNat = v) (hknow : Knows r v) :
    Calm m w r (sendTo (World.port N) (send (World.port N) packet) handle) (fun _ => True) := by
  have hentry : Calm m w r ((ptrLens (World.port N) v).read id)
      (fun p => p.pool_ = true → (whoOf p.handle_).toNat = v) :=
    Calm.read hr fun s F hk hp => hk.entry hN v hp
  refine (calm_slot hr hv).bind fun u hu => ?_
  subst hu
  refine hentry.bind fun p _ => (calm_isValid hr p).bind fun b _ => ?_
  cases b with
  | false => exact Calm.done hr trivial
  | true =>
      refine hentry.bind fun p hp => (calm_deref hr hp).bind fun u hu => ?_
      subst hu
      exact (calm_send hN hwhole hr hknow packet handle).bind fun _ _ => Calm.done hr trivial

/-- The loop. -/
theorem calm_broadcastLoop (hN : N < 2 ^ 32) (hwhole : m.whole = false) (hr : About w r)
    (packet : List UInt8) (sessionHandle : UInt64) {handles : List UInt64}
    (hknow : ∀ handle ∈ handles, ∃ v : Fin N, (whoOf handle).toNat = v ∧ Knows r v) :
    Calm m w r
      (broadcastLoop (sendTo (World.port N) (send (World.port N) packet)) sessionHandle handles)
      (fun _ => True) := by
  induction handles with
  | nil => exact Calm.done hr trivial
  | cons handle handles ih =>
      have hrest := ih fun handle hmem => hknow handle (List.mem_cons_of_mem _ hmem)
      obtain ⟨v, hv, hk⟩ := hknow handle List.mem_cons_self
      rw [broadcastLoop]
      split_ifs
      · exact (calm_sendTo hN hwhole hr packet hv hk).bind fun _ _ => hrest
      · exact hrest

/-! ## the snapshot -/

/-- A connected slot was used. -/
theorem Balanced.accepted_of_connected {x : Account} {F : Multiset Stage} (h : Balanced m x F)
    (hx : x.connected = 1) : x.accepted = 1 := by
  have ha := h.accepted
  have hone := h.acceptedOne
  omega

/-- What a thread knows of the slots it has seen. -/
def seenAt (l : List (Fin N)) : Multiset (Token N) :=
  (l : Multiset (Fin N)).map fun v => ⟨.seen, v, 0⟩

theorem seenAt_cons (v : Fin N) (l : List (Fin N)) :
    seenAt (v :: l) = ⟨.seen, v, 0⟩ ::ₘ seenAt l := by
  simp [seenAt]

theorem Past.add_seenAt {S : Multiset (Token N)} (hS : Past S) (l : List (Fin N)) :
    Past (seenAt l + S) := fun t ht => by
  rcases Multiset.mem_add.mp ht with ht | ht
  · obtain ⟨v, -, rfl⟩ := Multiset.mem_map.mp ht
    rfl
  · exact hS t ht

theorem knows_seenAt {S : Multiset (Token N)} {l : List (Fin N)} (hv : v ∈ l) :
    Knows (r + (seenAt l + S)) v :=
  ⟨⟨.seen, v, 0⟩, Multiset.mem_add.mpr (.inr (Multiset.mem_add.mpr (.inl
    (Multiset.mem_map.mpr ⟨v, hv, rfl⟩)))), rfl, rfl⟩

/-- A thread may note what it has seen. -/
theorem Kept.note (hk : Kept m s R) {l : List (Fin N)}
    (hl : ∀ v ∈ l, (s.slot v).account.connected = 1) : Kept m s (seenAt l + R) := by
  induction l with
  | nil => simpa [seenAt] using hk
  | cons v l ih =>
      have hrest := ih fun u hu => hl u (List.mem_cons_of_mem v hu)
      rw [seenAt_cons, Multiset.cons_add]
      refine ⟨hk.repr, fun t hmem hne => ?_, fun u => ?_, hk.created, hk.handled⟩
      · rcases Multiset.mem_cons.mp hmem with rfl | hmem
        · exact absurd rfl hne
        · exact hrest.current t hmem hne
      · by_cases hu : u = v
        · subst hu
          rw [stagesAt_cons_self]
          exact (hrest.balanced u).witness
            ((hk.balanced u).accepted_of_connected (hl u List.mem_cons_self))
        · rw [stagesAt_cons_ne hu]
          exact hrest.balanced u

/-- The handles of the slots that are connected. -/
theorem Kept.snapshot (hN : N < 2 ^ 32) (hk : Kept m s R) : ∃ l : List (Fin N),
    s.manager.sessionPool_.set.getIndicesInState SessionState.kConnected.toNat =
      some (l.map s.manager.handleAt) ∧ ∀ v ∈ l, s.manager.state v = 2 := by
  obtain ⟨b, hb⟩ := hk.repr
  refine ⟨b.members SessionState.kConnected.toNat,
    SparseSet.getIndicesInState_spec hN hb ⟨SessionState.kConnected.toNat, by decide⟩, fun v hv => ?_⟩
  rw [b.mem_members v ⟨SessionState.kConnected.toNat, by decide⟩] at hv
  rw [state, hb.state, hv]
  rfl

/-- The snapshot of `Broadcast` never fails. -/
theorem wp_snapshot (hN : N < 2 ^ 32) (hk : Kept m s R) {post : List UInt64 → World N × Unit → Prop}
    (hpost : ∀ l : List (Fin N), (∀ v ∈ l, s.manager.state v = 2) →
      post (l.map s.manager.handleAt) (s, ())) :
    Prog.wp m.answers (Tolerated m) (SparsePool.getIndicesInState (pool (World.port N))
      SessionState.kConnected.toNat) post (s, ()) := by
  obtain ⟨l, hl, hstate⟩ := hk.snapshot hN
  have hview : Prog.orFault (Fault.outOfRange .pool) (((pool (World.port N)).pool.get
      (s, ())).set.getIndicesInState SessionState.kConnected.toNat) =
      .ok (l.map s.manager.handleAt) := congrArg (Prog.orFault _) hl
  exact (Prog.wp_lens_view hview).mpr (hpost l hstate)

/-- `Broadcast`, one action after the other. -/
theorem Triple.broadcast (hN : N < 2 ^ 32) (hwhole : m.whole = false) (packet : List UInt8)
    (sessionHandle : UInt64) :
    Triple m w h ks (SessionManager.broadcast (World.port N) (send (World.port N) packet)
      sessionHandle) (Kind ks) := fun S hS => by
  have hab : About w (tokensAt w h ks + S) := about_tokensAt hS
  have hsnap : Safe (discipline N m) m.answers (About w)
      (SparsePool.getIndicesInState (pool (World.port N)) SessionState.kConnected.toNat)
      (fun handles _ r => ∃ l, r = tokensAt w h ks + (seenAt l + S) ∧
        ∀ handle ∈ handles, ∃ v : Fin N, (whoOf handle).toNat = v ∧ v ∈ l) ()
      (tokensAt w h ks + S) := Safe.action hab fun s F _ hk => by
    refine wp_snapshot hN hk fun l hl _ => ⟨fun _ => .stay rfl rfl, tokensAt w h ks + (seenAt l + S),
      ?_, about_tokensAt (hS.add_seenAt l), l, rfl, fun handle hmem => ?_⟩
    · have hnote := hk.note (l := l) fun v hv => by simp [Slot.account, World.slot, hl v hv]
      have hcomm : seenAt l + (tokensAt w h ks + S + F) = tokensAt w h ks + (seenAt l + S) + F := by
        ac_rfl
      rw [← hcomm]
      exact hnote
    · obtain ⟨v, hv, rfl⟩ := List.mem_map.mp hmem
      exact ⟨v, SessionManager.toNat_whoOf hN s.manager v, hv⟩
  refine Safe.bind (Safe.mono (fun _ hr => hr) (fun handles _ r hr => ?_) hsnap)
  obtain ⟨l, rfl, hmem⟩ := hr
  have hpast := hS.add_seenAt l
  refine Safe.mono (fun _ hr => hr) (fun _ _ r hr => ⟨ks, _, hpast, hr.1, rfl⟩)
    (calm_broadcastLoop hN hwhole (about_tokensAt hpast) packet sessionHandle fun handle hh => ?_)
  obtain ⟨v, hv, hl⟩ := hmem handle hh
  exact ⟨v, hv, knows_seenAt hl⟩

/-! ## the loop, as one step -/

/-- A turn, for a slot that is connected. -/
theorem wp_sendTo (hN : N < 2 ^ 32) (hk : Kept m s R) (hv : s.manager.state v = 2)
    (packet : List UInt8) :
    Prog.wp m.answers (Tolerated m)
      (sendTo (World.port N) (send (World.port N) packet) (s.manager.handleAt v))
      (fun _ x => Kept m x.1 R ∧ Steady s x.1) (s, ()) := by
  have hconnected : (s.slot v).account.connected = 1 := by simp [Slot.account, World.slot, hv]
  by_cases he : (s.slot v).account.entry = 1
  · have hlive : Live ((World.port N).manager.get (s, ())) v
        ((ptrLens (World.port N) v).get (s, ())) := Slot.live_entry he
    refine (wp_sendTo_live hN hlive).mpr ?_
    exact hk.wp_sendPacket hN ((hk.balanced v).accepted_of_connected hconnected)
      ((hk.balanced v).in_use_of_connected hconnected) packet _
  · have hone := (hk.balanced v).entryOne
    have hdead : Dead ((World.port N).manager.get (s, ()))
        ((ptrLens (World.port N) v).get (s, ())) :=
      dead_of_pool (Slot.null_entry (hk.balanced v).stray (by omega))
    exact (wp_sendTo_dead hN hdead).mpr ⟨hk, .refl s⟩

/-- The loop, for slots that are connected. -/
theorem wp_broadcastLoop (hN : N < 2 ^ 32) (packet : List UInt8) (sessionHandle : UInt64)
    {l : List (Fin N)} (hk : Kept m s R) (hl : ∀ v ∈ l, s.manager.state v = 2) :
    Prog.wp m.answers (Tolerated m)
      (broadcastLoop (sendTo (World.port N) (send (World.port N) packet)) sessionHandle
        (l.map s.manager.handleAt))
      (fun _ x => Kept m x.1 R ∧ Steady s x.1) (s, ()) := by
  induction l generalizing s with
  | nil => exact ⟨hk, .refl s⟩
  | cons v l ih =>
      have hrest : ∀ u ∈ l, s.manager.state u = 2 := fun u hu => hl u (List.mem_cons_of_mem v hu)
      rw [List.map_cons, broadcastLoop]
      split_ifs
      · rw [Prog.bind_eq, Prog.wp_bind]
        refine Prog.wp_mono (fun _ x hx => ?_) (wp_sendTo hN hk (hl v List.mem_cons_self) packet)
        obtain ⟨hk', hsteady⟩ := hx
        have hhandles : x.1.manager.handleAt = s.manager.handleAt := funext fun u => (hsteady u).2
        have hloop := ih hk' fun u hu => (hsteady u).1.trans (hrest u hu)
        rw [hhandles] at hloop
        exact Prog.wp_mono (fun _ _ hy => ⟨hy.1, hsteady.trans hy.2⟩) hloop
      · exact ih hk hrest

/-- `Broadcast` as one step. -/
theorem wp_broadcast (hN : N < 2 ^ 32) (hk : Kept m s R) (packet : List UInt8)
    (sessionHandle : UInt64) :
    Prog.wp m.answers (Tolerated m) (SessionManager.broadcast (World.port N)
      (send (World.port N) packet) sessionHandle)
      (fun _ x => Kept m x.1 R ∧ Steady s x.1) (s, ()) := by
  unfold SessionManager.broadcast
  rw [Prog.bind_eq, Prog.wp_bind]
  exact wp_snapshot hN hk fun l hl => wp_broadcastLoop hN packet sessionHandle hk hl

/-! ## the handlers -/

/-- What a handler does to send a packet. -/
theorem Triple.relay (hN : N < 2 ^ 32) (hpin : Pinned ks) (packet : List UInt8)
    (sessionHandle : UInt64) :
    Triple m w h ks (World.relay m.whole w packet sessionHandle) (Kind ks) := by
  refine (Triple.managerOf hpin).same_bind ?_
  cases hwhole : m.whole with
  | false => exact Triple.broadcast hN hwhole packet sessionHandle
  | true =>
      exact fun S hS => Safe.mono (fun _ hr => hr) (fun _ _ r hr => ⟨ks, S, hS, hr.1, rfl⟩)
        (Calm.locked (Q := fun _ => True) (about_tokensAt hS) rfl fun s F hk =>
          Prog.wp_mono (fun _ _ hx => ⟨hx.1, hx.2, trivial⟩)
            (wp_broadcast hN hk packet sessionHandle))

/-- `HandleC2S_MOVE`. -/
theorem Triple.handleC2SMove (hN : N < 2 ^ 32) (hpin : Pinned ks) (off : Nat) :
    Triple m w h ks (PacketHandler.handleC2SMove (sessionLens (World.port N) w)
      (World.relay m.whole w) off) (Kind ks) := by
  refine (Triple.readSession _ hpin).kind_bind fun handle => ?_
  refine (Triple.load hpin fun _ => tolerated_load _).kind_bind fun x => ?_
  refine (Triple.load hpin fun _ => tolerated_load _).kind_bind fun y => ?_
  refine (Triple.relay hN hpin _ handle).kind_bind fun b => ?_
  exact Triple.ite (fun _ => Triple.done rfl) fun _ => Triple.done rfl

/-- `HandleC2S_CHAT`. -/
theorem Triple.handleC2SChat (hN : N < 2 ^ 32) (hpin : Pinned ks) (off : Nat) :
    Triple m w h ks (PacketHandler.handleC2SChat (sessionLens (World.port N) w)
      (World.relay m.whole w) off) (Kind ks) := by
  refine (Triple.load hpin fun _ => tolerated_map (tolerated_load _)).kind_bind fun header => ?_
  refine (Triple.readSession _ hpin).kind_bind fun handle => ?_
  refine (Triple.load hpin fun _ => tolerated_load _).kind_bind fun payload => ?_
  have hdata : Triple m w h ks (Prog.lift (PacketHandler.chatPacket header.size handle payload))
      (Kind ks) := by
    cases hx : PacketHandler.chatPacket header.size handle payload with
    | error e => exact Triple.fault (tolerated_orFault (tolerated_of_ne (by decide)) _ e hx)
    | ok data => exact Triple.read hpin fun _ _ _ _ => rfl
  refine hdata.kind_bind fun data => (Triple.relay hN hpin data handle).kind_bind fun b => ?_
  exact Triple.ite (fun _ => Triple.done rfl) fun _ => Triple.done rfl

/-- `PacketHandler::Execute` of the session that a thread is at work on. -/
theorem Triple.execute (hN : N < 2 ^ 32) (hpin : Pinned ks) (off : Nat) :
    Triple m w h ks (World.execute m.whole w off) (Kind ks) := by
  refine (Triple.load hpin fun _ => tolerated_map (tolerated_load _)).kind_bind fun header => ?_
  rw [PacketHandler.handlers_get?]
  split_ifs
  · exact Triple.fault (tolerated_of_ne (by decide))
  · exact Triple.handleC2SMove hN hpin off
  · exact Triple.handleC2SChat hN hpin off
  · exact Triple.fault (tolerated_of_ne (by decide))

end Server

end ServerStudy
