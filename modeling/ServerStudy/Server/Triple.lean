import ServerStudy.Server.Slots

/-!
# ServerStudy.Server.Triple

How one thread keeps the books.  A thread handles one slot at a time, under a
handle that stays current as long as it has any business with the slot;
`Triple w h ks p Q` says that `p`, begun with the stages `ks` at slot `w`, keeps
the books of every slot at each of its actions, and ends with stages that
satisfy `Q`.

* `Triple.bind`, `Triple.atomically`, `Triple.update` — the rules;
* the lemmas after them — pointers, and reading and writing a session.
-/

namespace ServerStudy

namespace Server

open SessionManager

variable {N : Nat}

/-! ## the discipline -/

/-- A thread with nothing to do knows which slots were used. -/
def Past (R : Multiset (Token N)) : Prop := ∀ t ∈ R, t.stage = .seen

/-- All business is with one slot. -/
def About (w : Fin N) (R : Multiset (Token N)) : Prop := ∀ t ∈ R, t.stage ≠ .seen → t.slot = w

/-- What a thread has to do with the slots in the middle of an operation. -/
def World.Op.Minds : World.Op N → Multiset (Token N) → Prop
  | .postAccept => fun _ => True
  | .complete w _ => About w

/-- The faults a thread may run into: no assertion fails, and no index made of a
handle is out of range; and where accepts are dequeued after `SetListener`,
`GetListener` is not null. -/
def Tolerated (m : Terms) (e : Fault) : Prop :=
  (e ≠ .assertion ∧ e ≠ .outOfRange .pool ∧ e ≠ .outOfRange .sessions) ∧
    (m.patient = true → e ≠ .noListener)

/-- Any other fault, whatever is assumed. -/
theorem tolerated_of_ne {m : Terms} {e : Fault} (he : e ≠ .assertion ∧ e ≠ .outOfRange .pool ∧
    e ≠ .outOfRange .sessions ∧ e ≠ .noListener) : Tolerated m e :=
  ⟨⟨he.1, he.2.1, he.2.2.1⟩, fun _ => he.2.2.2⟩

/-- The answers that are as assumed. -/
def Terms.answers (m : Terms) : Answers (World N × Unit) (Socket N) := fun β s q a =>
  World.answers β s q a ∧
    match q, a with
    | .acceptEx _, r => m.accepting = true → r.posted = true
    | .disconnectEx _, r => m.prompt = true → r.posted = true
    | .deliver _ .disconnect, c => m.prompt = true → c.result = true
    | .deliver w .accept, _ => m.patient = true → s.1.listening w = s.1.manager.handleAt w
    | _, _ => True

/-- The books are kept, and every slot evolves as it may. -/
def discipline (N : Nat) (m : Terms) : Discipline (World.client N m.whole) (Token N) where
  guard _ := True
  bad := Tolerated m
  inv := Kept m
  idle _ := Past
  held op _ := op.Minds
  change s s' _ := ∀ w, Evolves (s.slot w) (s'.slot w)

/-- `p` keeps the books, having to do with slot `w` only. -/
def Triple {α : Type} (m : Terms) (w : Fin N) (h : UInt64) (ks : Multiset Stage)
    (p : Prog (World N × Unit) (Socket N) Fault α) (Q : α → Multiset Stage → Prop) : Prop :=
  ∀ S, Past S → Safe (discipline N m) m.answers (About w) p
    (fun a _ r => ∃ ks' S', Past S' ∧ r = tokensAt w h ks' + S' ∧ Q a ks') () (tokensAt w h ks + S)

variable {m : Terms} {w : Fin N} {h : UInt64} {ks ks' : Multiset Stage} {α β : Type}
  {p : Prog (World N × Unit) (Socket N) Fault α} {Q Q' : α → Multiset Stage → Prop}

theorem about_tokensAt {S : Multiset (Token N)} (hS : Past S) : About w (tokensAt w h ks + S) := by
  intro t ht hne
  rcases Multiset.mem_add.mp ht with ht | ht
  · obtain ⟨k, -, rfl⟩ := Multiset.mem_map.mp ht
    rfl
  · exact absurd (hS t ht) hne

/-! ## rules -/

theorem Triple.done {a : α} (hq : Q a ks) : Triple m w h ks (.done a) Q :=
  fun S hS => ⟨about_tokensAt hS, ks, S, hS, rfl, hq⟩

theorem Triple.mono (hp : Triple m w h ks p Q) (hq : ∀ a ks', Q a ks' → Q' a ks') :
    Triple m w h ks p Q' := fun S hS =>
  Safe.mono (fun _ hr => hr)
    (fun a _ _ ⟨ks', S', hS', hr, h⟩ => ⟨ks', S', hS', hr, hq a ks' h⟩) (hp S hS)

/-- Sequential composition. -/
theorem Triple.bind {f : α → Prog (World N × Unit) (Socket N) Fault β}
    {R : β → Multiset Stage → Prop} (hp : Triple m w h ks p Q)
    (hf : ∀ a ks', Q a ks' → Triple m w h ks' (f a) R) :
    Triple m w h ks (p.bind f) R := fun S hS =>
  Safe.bind (Safe.mono (fun _ hr => hr) (fun a _ r ⟨ks', S', hS', hr, hq⟩ => by
    subst hr
    exact hf a ks' hq S' hS') (hp S hS))

theorem Triple.ite {c : Prop} [Decidable c] {q : Prog (World N × Unit) (Socket N) Fault α}
    (hp : c → Triple m w h ks p Q) (hq : ¬ c → Triple m w h ks q Q) :
    Triple m w h ks (if c then p else q) Q := by
  split_ifs with hc
  · exact hp hc
  · exact hq hc

theorem Triple.fault {e : Fault} (he : Tolerated m e) :
    Triple m w h ks (Prog.fault e : Prog (World N × Unit) (Socket N) Fault α) Q :=
  fun _ hS => ⟨about_tokensAt hS, fun _ _ _ _ => he⟩

/-- There is business with the slot, so its handle stays current. -/
def Pinned (ks : Multiset Stage) : Prop := ∃ k ∈ ks, k ≠ .seen

theorem pinned_cons {k : Stage} (hk : k ≠ .seen) (ks : Multiset Stage) : Pinned (k ::ₘ ks) :=
  ⟨k, Multiset.mem_cons_self _ _, hk⟩

/-- What one action has to do: it may touch the slot, whose books must agree
again, and lets it evolve. -/
def Lawful (m : Terms) (w : Fin N) (h : UInt64) (ks : Multiset Stage)
    (p : Prog (World N × Unit) (Socket N) Fault α) (Q : α → Multiset Stage → Prop) : Prop :=
  ∀ s F, s.manager.handleAt w = h → (∃ b, SparseSet.Repr s.manager.sessionPool_.set b) →
    Balanced m (s.slot w).account (ks + F) →
    Prog.wp m.answers (Tolerated m) p (fun a x => ∃ y ks', Touch w s x.1 y ∧ y.handle = h ∧
      Evolves (s.slot w) y ∧ Balanced m y.account (ks' + F) ∧ Q a ks') (s, ())

theorem Lawful.kept (hp : Lawful m w h ks p Q) (hpin : Pinned ks) {s : World N}
    {S F : Multiset (Token N)} (hS : Past S) (hk : Kept m s (tokensAt w h ks + S + F)) :
    Prog.wp m.answers (Tolerated m) p (fun a x => (∀ v, Evolves (s.slot v) (x.1.slot v)) ∧
      ∃ r, Kept m x.1 (r + F) ∧ About w r ∧ ∃ ks' S', Past S' ∧ r = tokensAt w h ks' + S' ∧
        Q a ks') (s, ()) := by
  rw [Multiset.add_assoc] at hk
  obtain ⟨k, hmem, hne⟩ := hpin
  have hh := hk.handle hmem hne
  refine Prog.wp_mono (fun a x hx => ?_) (hp s _ hh hk.repr hk.at)
  obtain ⟨y, ks', ht, hy, hev, hbal, hq⟩ := hx
  refine ⟨fun v => ?_, tokensAt w h ks' + S, ?_, about_tokensAt hS, ks', S, hS, rfl, hq⟩
  · by_cases hv : v = w
    · rw [hv, ht.slot]
      exact hev
    · rw [ht.other v hv]
      exact .stay rfl rfl
  · rw [Multiset.add_assoc]
    exact hk.touch ht hh hy hbal

/-- A section run as one action. -/
theorem Triple.atomically (hp : Lawful m w h ks p Q) (hpin : Pinned ks) :
    Triple m w h ks (Prog.atomically p) Q := fun _ hS =>
  Safe.atomically (about_tokensAt hS) fun _ _ _ hk =>
    Prog.wp_mono (fun _ _ hx _ => hx) (hp.kept hpin hS hk)

/-- The same, for a method that is such a section. -/
theorem Triple.locked {q : Prog (World N × Unit) (Socket N) Fault α} (hpq : p = Prog.atomically q)
    (hp : Lawful m w h ks p Q) (hpin : Pinned ks) : Triple m w h ks p Q := by
  subst hpq
  exact Triple.atomically (fun s F hh hrepr hbal => hp s F hh hrepr hbal) hpin

/-- One action. -/
theorem Triple.update {f : World N × Unit → Except Fault (α × (World N × Unit))}
    (hp : Lawful m w h ks (Prog.update f) Q) (hpin : Pinned ks) :
    Triple m w h ks (Prog.update f) Q := fun _ hS =>
  Safe.action (about_tokensAt hS) fun _ _ _ hk =>
    Prog.wp_mono (fun _ _ hx _ => hx) (hp.kept hpin hS hk)

/-- A question. -/
theorem Triple.query {q : Socket N α} (hp : Lawful m w h ks (Prog.query q) Q)
    (hpin : Pinned ks) : Triple m w h ks (Prog.query q) Q := fun S hS => by
  refine ⟨about_tokensAt hS, fun s F _ hk a ha => ?_⟩
  have hx := hp.kept hpin hS hk
  obtain ⟨hev, r', hk', hab, hpost⟩ := hx a ha
  exact ⟨hev, r', hk', hab, hpost⟩

/-! ## what is left as it is -/

/-- It returns `b`, and the stages are `ks`. -/
def Same (b : α) (ks : Multiset Stage) : α → Multiset Stage → Prop := fun a ks' => a = b ∧ ks' = ks

/-- Sequential composition, after a program with a known result. -/
theorem Triple.same_bind {K : Multiset Stage} {b : α}
    {f : α → Prog (World N × Unit) (Socket N) Fault β} {R : β → Multiset Stage → Prop}
    (hp : Triple m w h ks p (Same b K)) (hf : Triple m w h K (f b) R) :
    Triple m w h ks (p.bind f) R :=
  hp.bind fun a K' ha => by
    obtain ⟨rfl, rfl⟩ := ha
    exact hf

/-- It returns something, and the stages are `ks`. -/
def Kind (ks : Multiset Stage) : α → Multiset Stage → Prop := fun _ ks' => ks' = ks

/-- Sequential composition, after a program that leaves known stages. -/
theorem Triple.kind_bind {K : Multiset Stage}
    {f : α → Prog (World N × Unit) (Socket N) Fault β} {R : β → Multiset Stage → Prop}
    (hp : Triple m w h ks p (Kind K)) (hf : ∀ a, Triple m w h K (f a) R) :
    Triple m w h ks (p.bind f) R :=
  hp.bind fun a _ hK => hK ▸ hf a

/-- An action that changes nothing in the world. -/
theorem Lawful.keep (hp : ∀ s F, s.manager.handleAt w = h →
    Balanced m (s.slot w).account (ks + F) →
    Prog.wp m.answers (Tolerated m) p (fun a x => x = (s, ()) ∧
      ∃ ks', Balanced m (s.slot w).account (ks' + F) ∧ Q a ks') (s, ())) :
    Lawful m w h ks p Q := fun s F hh hrepr hbal =>
  Prog.wp_mono (fun a x hx => by
    obtain ⟨rfl, ks', hbal', hq⟩ := hx
    exact ⟨s.slot w, ks', Touch.refl w hrepr, hh, .stay rfl rfl, hbal', hq⟩) (hp s F hh hbal)

/-- A read. -/
theorem Triple.read {f : World N × Unit → α} (hpin : Pinned ks)
    (hf : ∀ s F, s.manager.handleAt w = h → Balanced m (s.slot w).account (ks + F) →
      Q (f (s, ())) ks) : Triple m w h ks (Prog.read f) Q :=
  Triple.update (Lawful.keep fun s F hh hbal => ⟨rfl, ks, hbal, hf s F hh hbal⟩) hpin

/-- A read of a session that may fault. -/
theorem Triple.viewSession {f : Session → Except Fault α} (hpin : Pinned ks)
    (hbad : ∀ (s : World N) F e, Balanced m (s.slot w).account (ks + F) →
      f (s.manager.session w) = .error e → Tolerated m e) (hq : ∀ a, Q a ks) :
    Triple m w h ks ((sessionLens (World.port N) w).view f) Q :=
  Triple.update (Lawful.keep fun s F _ hbal => by
    simp only [Prog.update, Prog.wp]
    cases hf : f ((sessionLens (World.port N) w).get (s, ())) with
    | error e => exact hbad s F e hbal hf
    | ok a => exact ⟨rfl, ks, hbal, hq a⟩) hpin

/-- The same, whatever is read. -/
theorem Triple.load {f : Session → Except Fault α} (hpin : Pinned ks)
    (hbad : ∀ x e, f x = .error e → Tolerated m e) :
    Triple m w h ks ((sessionLens (World.port N) w).view f) (Kind ks) :=
  Triple.viewSession hpin (fun s _ e _ he => hbad (s.manager.session w) e he) fun _ => rfl

/-- A read beyond the buffer. -/
theorem tolerated_load (ov : OverlappedEx) {off n : Nat} (e : Fault)
    (he : ov.load off n = .error e) : Tolerated m e := by
  unfold OverlappedEx.load at he
  cases hr : ov.buffer_.read? off n with
  | none =>
      rw [hr] at he
      injection he with he
      subst he
      exact tolerated_of_ne (by decide)
  | some bytes =>
      rw [hr] at he
      cases he

theorem tolerated_map {x : Except Fault α} {f : α → β} (hx : ∀ e, x = .error e → Tolerated m e)
    (e : Fault) (he : x.map f = .error e) : Tolerated m e := by
  cases x with
  | error e' =>
      injection he with he
      exact he ▸ hx e' rfl
  | ok a => cases he

theorem tolerated_orFault {e : Fault} (he : Tolerated m e) (o : Option α) (e' : Fault)
    (h : Prog.orFault e o = .error e') : Tolerated m e' := by
  cases o with
  | none =>
      injection h with h
      exact h ▸ he
  | some a => cases h

/-- A change of the session that may fault. -/
theorem Triple.updateSession {f : Session → Except Fault (α × Session)} (hpin : Pinned ks)
    (hbad : ∀ x e, f x = .error e → Tolerated m e)
    (hf : ∀ (x : Slot) F a y, x.handle = h → f x.session = .ok (a, y) →
      Balanced m x.account (ks + F) → ∃ ks',
      Balanced m (Slot.account { x with session := y }) (ks' + F) ∧ Q a ks') :
    Triple m w h ks ((sessionLens (World.port N) w).update f) Q :=
  Triple.update (fun s F hh hrepr hbal => by
    have hget : (sessionLens (World.port N) w).get (s, ()) = s.manager.session w := rfl
    simp only [Prog.update, Prog.wp, hget]
    cases hfx : f (s.manager.session w) with
    | error e => exact hbad _ e hfx
    | ok r =>
        obtain ⟨ks', hbal', hq⟩ := hf (s.slot w) F r.1 r.2 hh hfx hbal
        exact ⟨_, ks', touch_setSession hrepr r.2, hh, .stay rfl rfl, hbal', hq⟩) hpin

/-- A change of the session. -/
theorem Triple.modifySession {f : Session → Session} (hpin : Pinned ks)
    (hf : ∀ (x : Slot) F, x.handle = h → Balanced m x.account (ks + F) →
      Balanced m (Slot.account { x with session := f x.session }) (ks' + F)) :
    Triple m w h ks ((sessionLens (World.port N) w).modify f) (Same () ks') :=
  Triple.update (fun s F hh hrepr hbal =>
    ⟨_, ks', touch_setSession hrepr (f (s.manager.session w)), hh, .stay rfl rfl,
      hf (s.slot w) F hh hbal, rfl, rfl⟩) hpin

/-- A change of the world that is not one of its slots'. -/
theorem Triple.change {f : World N → World N}
    (hf : ∀ s F, Kept m s (tokensAt w h ks + F) →
      (∀ v, Evolves (s.slot v) ((f s).slot v)) ∧ Kept m (f s) (tokensAt w h ks + F)) :
    Triple m w h ks (World.change f) (Kind ks) := fun S hS => by
  refine Safe.action (about_tokensAt hS) fun s F _ hk => (Prog.wp_modify _ _ _).mpr fun _ => ?_
  have hk' : Kept m s (tokensAt w h ks + (S + F)) := by
    rw [← add_assoc]
    exact hk
  obtain ⟨hev, hk'⟩ := hf s _ hk'
  rw [← add_assoc] at hk'
  exact ⟨hev, tokensAt w h ks + S, hk', about_tokensAt hS, _, S, hS, rfl, rfl⟩

/-! ## handles -/

theorem Triple.isValid (hN : N < 2 ^ 32) (hpin : Pinned ks) :
    Triple m w h ks (SparsePool.isValid (pool (World.port N)) h) (Same true ks) :=
  Triple.read hpin fun s F hh _ => by
    subst hh
    exact ⟨SessionManager.isValid_handleAt hN s.manager w, rfl⟩

theorem Triple.ptrIsValid (hN : N < 2 ^ 32) (hpin : Pinned ks) :
    Triple m w h ks (SharedPoolPtr.isValid (pool (World.port N)) ⟨true, h⟩) (Same true ks) :=
  Triple.isValid hN hpin

theorem Triple.slot (hN : N < 2 ^ 32) (hpin : Pinned ks) :
    Triple m w h ks (SessionManager.slot h) (Same w ks) :=
  Triple.update (Lawful.keep fun s F hh hbal => by
    subst hh
    refine (wp_slot hN s.manager).mpr ⟨rfl, ks, hbal, rfl, rfl⟩) hpin

/-- `operator->` of a pointer with the handle. -/
theorem Triple.deref (hN : N < 2 ^ 32) (hpin : Pinned ks) :
    Triple m w h ks (SessionManager.deref (World.port N) ⟨true, h⟩) (Same w ks) :=
  (Triple.ptrIsValid hN hpin).same_bind ((Triple.isValid hN hpin).same_bind (Triple.slot hN hpin))

/-- `*sessionManager_`. -/
theorem Triple.managerOf (hpin : Pinned ks) :
    Triple m w h ks (SessionManager.managerOf (World.port N) w) (Same () ks) :=
  Triple.viewSession hpin (fun x _ e _ he => by
    split_ifs at he
    cases he
    exact tolerated_of_ne (by decide)) fun _ => ⟨rfl, rfl⟩

/-! ## counts -/

theorem managerLens_lawful (N : Nat) : (World.port N).manager.Lawful where
  set_get _ := rfl
  set_set _ _ _ := rfl

/-- `fetch_add` of the slot's count. -/
theorem Triple.fetchAdd (hN : N < 2 ^ 32) (hpin : Pinned ks)
    (hset : ∀ v F, Balanced m v (ks + F) → Balanced m { v with refs := v.refs + 1 } (ks' + F)) :
    Triple m w h ks
      ((pool (World.port N)).pool.update (SparsePool.fetchAdd (whoOf h).toNat)) (Kind ks') :=
  Triple.update (fun s F hh hrepr hbal => by
    subst hh
    change Prog.wp _ _ ((pool (World.port N)).pool.update _) _ _
    rw [SessionManager.toNat_whoOf hN, Prog.wp_lens_update (SparsePool.fetchAdd_val s.manager.sessionPool_ w)]
    exact ⟨_, ks', touch_recount hrepr (s.manager.refCount w + 1), rfl, .stay rfl rfl,
      hset _ _ hbal, rfl⟩) hpin

/-- `AddRef` of the handle. -/
theorem Triple.addRef (hN : N < 2 ^ 32) (hpin : Pinned ks)
    (hset : ∀ v F, Balanced m v (ks + F) → Balanced m { v with refs := v.refs + 1 } (ks' + F)) :
    Triple m w h ks (SparsePool.addRef (pool (World.port N)) h) (Same true ks') :=
  (Triple.isValid hN hpin).same_bind
    ((Triple.fetchAdd hN hpin hset).kind_bind fun _ => Triple.done ⟨rfl, rfl⟩)

/-- `fetch_sub` of it, while there are other pointers. -/
theorem Triple.fetchSub_many (hN : N < 2 ^ 32) (hpin : Pinned ks)
    (hset : ∀ v F, Balanced m v (ks + F) →
      1 < v.refs ∧ Balanced m { v with refs := v.refs - 1 } (ks' + F)) :
    Triple m w h ks
      ((pool (World.port N)).pool.update (SparsePool.fetchSub (whoOf h).toNat))
      (fun n K => n ≠ 1 ∧ K = ks') :=
  Triple.update (fun s F hh hrepr hbal => by
    subst hh
    obtain ⟨hmany, hbal'⟩ := hset _ _ hbal
    have hcount : 1 < s.manager.refCount w := hmany
    change Prog.wp _ _ ((pool (World.port N)).pool.update _) _ _
    rw [SessionManager.toNat_whoOf hN, Prog.wp_lens_update
      (SparsePool.fetchSub_val s.manager.sessionPool_ w (Nat.zero_lt_of_lt hcount))]
    exact ⟨_, ks', touch_recount hrepr (s.manager.refCount w - 1), rfl, .stay rfl rfl, hbal',
      hcount.ne', rfl⟩) hpin

/-- `ReleaseRef` of the handle, while there are other pointers. -/
theorem Triple.releaseRef_many (hN : N < 2 ^ 32) (hpin : Pinned ks)
    (hset : ∀ v F, Balanced m v (ks + F) →
      1 < v.refs ∧ Balanced m { v with refs := v.refs - 1 } (ks' + F)) :
    Triple m w h ks (SparsePool.releaseRef (pool (World.port N)) h) (Same false ks') :=
  (Triple.isValid hN hpin).same_bind ((Triple.fetchSub_many hN hpin hset).bind
    fun n K hn => Triple.ite (fun h1 => absurd h1 hn.1) fun _ => Triple.done ⟨rfl, hn.2⟩)

/-! ## pointers -/

/-- A pointer in use is counted. -/
theorem refs_pos_of_cell {v : Account} {F : Multiset Stage} (hbal : Balanced m v F) {i : Ov}
    (hi : v.cell i = 1) : 0 < v.refs := by
  have hr := hbal.refs
  cases i <;> simp only [Account.cell] at hi <;> omega

/-- So is a thread's. -/
theorem refs_pos_of_counts {k : Stage} (hk : k.counts = true) (v : Account) (F : Multiset Stage)
    (hbal : Balanced m v (k ::ₘ ks + F)) : 0 < v.refs := by
  have hr := hbal.refs
  rw [Multiset.cons_add, tally_cons, hk] at hr
  simp only [Bool.toNat_true] at hr
  omega

/-- Copying the pointer in an `OverlappedEx`. -/
theorem Triple.copyCell (hN : N < 2 ^ 32) (hpin : Pinned ks) {i : Ov}
    (hcell : ∀ v F, Balanced m v (ks + F) → v.cell i = 1) :
    Triple m w h ks (copyOf (World.port N) (ovPtrLens (World.port N) w i))
      (Same ⟨true, h⟩ (.ref ::ₘ ks)) := by
  refine Triple.same_bind (K := ks) (b := ⟨true, h⟩) (Triple.read hpin fun s F hh hbal => ?_) ?_
  · subst hh
    exact ⟨Slot.live_cell (hcell _ _ hbal), rfl⟩
  · refine (Triple.addRef hN hpin fun v F hbal => ?_).same_bind (Triple.done ⟨rfl, rfl⟩)
    rw [Multiset.cons_add]
    exact hbal.retain (refs_pos_of_cell hbal (hcell _ _ hbal))

/-- Copying the pointer in the array, which may be null; the slot is in use. -/
theorem Triple.copyEntry (hN : N < 2 ^ 32) (hpin : Pinned ks)
    (huse : ∀ v F, Balanced m v (ks + F) → 0 < v.refs)
    {Q : SharedPoolPtr → Multiset Stage → Prop} (hlive : Q ⟨true, h⟩ (.ref ::ₘ ks))
    (hnull : ∀ v F, Balanced m v (ks + F) → v.entry = 0 → ∃ ks', Balanced m v (ks' + F) ∧
      ∀ p : SharedPoolPtr, p.pool_ = false → Q p ks') :
    Triple m w h ks (copyOf (World.port N) (ptrLens (World.port N) w)) Q := by
  refine Triple.bind (Q := fun p K => p = ⟨true, h⟩ ∧ K = ks ∨ p.pool_ = false ∧ Q p K)
    (Triple.update (Lawful.keep fun s F hh hbal => ?_) hpin) fun p K hp => ?_
  · subst hh
    have hone := hbal.entryOne
    have hcases : (s.slot w).account.entry = 0 ∨ (s.slot w).account.entry = 1 := by omega
    rcases hcases with he | he
    · have hptr := Slot.null_entry hbal.stray he
      obtain ⟨K, hbal', hq⟩ := hnull _ _ hbal he
      exact ⟨rfl, K, hbal', .inr ⟨hptr, hq _ hptr⟩⟩
    · exact ⟨rfl, ks, hbal, .inl ⟨Slot.live_entry he, rfl⟩⟩
  · rcases hp with ⟨rfl, rfl⟩ | ⟨hpool, hq⟩
    · refine (Triple.addRef hN hpin fun v F hbal => ?_).same_bind (Triple.done hlive)
      rw [Multiset.cons_add]
      exact hbal.retain (huse v F hbal)
    · unfold SharedPoolPtr.copy
      rw [hpool]
      exact Triple.done hq

/-- `GetSession` of the handle. -/
theorem Triple.getSession (hN : N < 2 ^ 32) (hpin : Pinned ks)
    (huse : ∀ v F, Balanced m v (ks + F) → 0 < v.refs)
    {Q : SharedPoolPtr → Multiset Stage → Prop} (hlive : Q ⟨true, h⟩ (.ref ::ₘ ks))
    (hnull : ∀ v F, Balanced m v (ks + F) → v.entry = 0 → ∃ ks', Balanced m v (ks' + F) ∧
      ∀ p : SharedPoolPtr, p.pool_ = false → Q p ks') :
    Triple m w h ks (SessionManager.getSession (World.port N) h) Q :=
  (Triple.isValid hN hpin).same_bind
    ((Triple.slot hN hpin).same_bind (Triple.copyEntry hN hpin huse hlive hnull))

/-- The world after another pointer in an `OverlappedEx`. -/
theorem touch_setOvPtr {s : World N} (hrepr : ∃ b, SparseSet.Repr s.manager.sessionPool_.set b)
    (i : Ov) (p : SharedPoolPtr) :
    Touch w s (s.setManager (s.manager.setOvPtr w i p)) { s.slot w with
      session := (s.manager.session w).setOv
        { (s.manager.session w).ov i with sessionPtr_ := p } i } :=
  touch_setSession hrepr _

/-- The pointer in an `OverlappedEx` is read, and is null. -/
theorem Triple.readNull (hpin : Pinned ks) {i : Ov}
    (hfree : ∀ v F, Balanced m v (ks + F) → v.cell i = 0) :
    Triple m w h ks ((ovPtrLens (World.port N) w i).read id)
      (fun p K => p.pool_ = false ∧ K = ks) :=
  Triple.read hpin fun _ _ _ hbal => ⟨Slot.null_cell hbal.stray (hfree _ _ hbal), rfl⟩

/-- It is read, and leads to the session. -/
theorem Triple.readLive (hpin : Pinned ks) {i : Ov}
    (hcell : ∀ v F, Balanced m v (ks + F) → v.cell i = 1) :
    Triple m w h ks ((ovPtrLens (World.port N) w i).read id) (Same ⟨true, h⟩ ks) :=
  Triple.read hpin fun s F hh hbal => by
    subst hh
    exact ⟨Slot.live_cell (hcell _ _ hbal), rfl⟩

/-- It is written. -/
theorem Triple.writeCell (hpin : Pinned ks) {i : Ov} {q : SharedPoolPtr}
    (hq : q = ⟨true, h⟩ ∨ q.pool_ = false)
    (hset : ∀ v F, Balanced m v (ks + F) → Balanced m (v.setCell (live h q) i) (ks' + F)) :
    Triple m w h ks ((ovPtrLens (World.port N) w i).modify fun _ => q) (Same () ks') :=
  Triple.update (fun s F hh hrepr hbal => by
    subst hh
    have hstray : stray (s.manager.handleAt w) q = 0 := by
      rcases hq with rfl | hq
      · exact stray_self _
      · exact stray_of_pool hq
    have haccount := Slot.account_setCell (x := s.slot w) (i := i) hbal.stray hstray
    exact ⟨_, ks', touch_setOvPtr hrepr i q, rfl, .stay rfl rfl,
      Eq.mpr (congrArg (fun v => Balanced _ v _) haccount) (hset _ _ hbal), rfl, rfl⟩) hpin

/-- Assigning to a null pointer in an `OverlappedEx`. -/
theorem Triple.assignCell (hpin : Pinned ks) {i : Ov} {q : SharedPoolPtr}
    (hq : q = ⟨true, h⟩ ∨ q.pool_ = false)
    (hfree : ∀ v F, Balanced m v (ks + F) → v.cell i = 0)
    (hset : ∀ v F, Balanced m v (ks + F) → Balanced m (v.setCell (live h q) i) (ks' + F)) :
    Triple m w h ks (assign (World.port N) (ovPtrLens (World.port N) w i) q) (Same () ks') :=
  (Triple.readNull hpin hfree).bind fun p K ⟨hpool, hK⟩ => by
    subst hK
    dsimp only
    rw [hpool]
    exact Triple.writeCell hpin hq hset

/-- Two pointers to a slot, one of them in an `OverlappedEx`. -/
theorem one_lt_refs {v : Account} {F : Multiset Stage} (hbal : Balanced m v (.ref ::ₘ F)) {i : Ov}
    (hi : v.cell i = 1) : 1 < v.refs := by
  have hr := hbal.refs
  simp only [tally_cons, Stage.counts, Bool.toNat_true] at hr
  cases i <;> simp only [Account.cell] at hi <;> omega

/-- What `Reset` does with the pointer in an `OverlappedEx` that it has read, in a thread that has
another: it is counted no more, and then it is null. -/
theorem Triple.resetRead (hN : N < 2 ^ 32) {k : Stage} (hk : k ≠ .seen) {i : Ov}
    (hcell : ∀ v F, Balanced m v (k ::ₘ F) → v.cell i = 1)
    (hset : ∀ v F, Balanced m v (k ::ₘ ks + F) → Balanced m (v.setCell 0 i) (ks' + F)) :
    Triple m w h (.ref ::ₘ k ::ₘ ks) ((SparsePool.isValid (pool (World.port N)) h).bind fun valid =>
      if valid then
        (SparsePool.releaseRef (pool (World.port N)) h).bind fun last =>
          if last then .done true
          else ((ovPtrLens (World.port N) w i).modify fun _ => .null).bind fun _ => .done false
      else .done false) (Same false ks') := by
  have hpin : Pinned (.ref ::ₘ k ::ₘ ks) := pinned_cons (by decide) _
  refine (Triple.isValid hN hpin).same_bind ?_
  refine Triple.same_bind (K := k ::ₘ ks)
    (Triple.releaseRef_many hN hpin fun v F hbal => ?_) ?_
  · rw [Multiset.cons_add] at hbal
    have hmany := one_lt_refs hbal (i := i) (by
      rw [Multiset.cons_add, Multiset.cons_swap] at hbal
      exact hcell v _ hbal)
    exact ⟨hmany, hbal.drop hmany⟩
  · refine Triple.same_bind (K := ks') (b := ()) ?_ (Triple.done ⟨rfl, rfl⟩)
    refine Triple.writeCell (pinned_cons hk ks) (.inr rfl) fun v F hbal => ?_
    rw [live_of_pool rfl]
    exact hset v F hbal

/-- `Reset` of a pointer in an `OverlappedEx`, by a thread that has another. -/
theorem Triple.resetCell (hN : N < 2 ^ 32) {k : Stage} (hk : k ≠ .seen) {i : Ov}
    (hcell : ∀ v F, Balanced m v (k ::ₘ F) → v.cell i = 1)
    (hset : ∀ v F, Balanced m v (k ::ₘ ks + F) → Balanced m (v.setCell 0 i) (ks' + F)) :
    Triple m w h (.ref ::ₘ k ::ₘ ks) (reset (World.port N) (ovPtrLens (World.port N) w i))
      (Same () ks') := by
  refine Triple.same_bind (K := ks') (b := false) (Triple.same_bind (Triple.readLive
    (pinned_cons (by decide) _) fun v F hbal => ?_) (Triple.resetRead hN hk hcell hset))
    (Triple.done ⟨rfl, rfl⟩)
  rw [Multiset.cons_swap, Multiset.cons_add] at hbal
  exact hcell v _ hbal

/-! ## the last release -/

/-- No slot's handle is invalid. -/
theorem handleAt_ne (hN : N < 2 ^ 32) (m : SessionManager N) (w : Fin N) :
    m.handleAt w ≠ kInvalidHandle := fun he => by
  have hv := isValid_handleAt hN m w
  rw [he, SparseSet.isValid_kInvalidHandle hN] at hv
  cases hv

/-- `fetch_sub` of the count, which may be the last. -/
theorem Triple.fetchSub (hN : N < 2 ^ 32) :
    Triple m w h (.ref ::ₘ ks)
      ((pool (World.port N)).pool.update (SparsePool.fetchSub (whoOf h).toNat))
      (fun n K => n = 1 ∧ K = .released ::ₘ ks ∨ n ≠ 1 ∧ K = ks) :=
  Triple.update (fun s F hh hrepr hbal => by
    subst hh
    rw [Multiset.cons_add] at hbal
    have hpos : 0 < s.manager.refCount w := by
      have hr := hbal.refs
      simp only [tally_cons, Stage.counts, Bool.toNat_true] at hr
      change 0 < (s.slot w).account.refs
      omega
    have htouch := touch_recount (w := w) hrepr (s.manager.refCount w - 1)
    change Prog.wp _ _ ((pool (World.port N)).pool.update _) _ _
    rw [SessionManager.toNat_whoOf hN, Prog.wp_lens_update
      (SparsePool.fetchSub_val s.manager.sessionPool_ w hpos)]
    by_cases hone : s.manager.refCount w = 1
    · have hlast := hbal.release hone
      rw [← Multiset.cons_add] at hlast
      refine ⟨_, .released ::ₘ ks, htouch, rfl, .stay rfl rfl, ?_, .inl ⟨hone, rfl⟩⟩
      rw [hone]
      exact hlast
    · exact ⟨_, ks, htouch, rfl, .stay rfl rfl, hbal.drop (show 1 < s.manager.refCount w by omega),
        .inr ⟨hone, rfl⟩⟩) (pinned_cons (by decide) ks)

/-- `OverlappedEx::Reset` in the deleter, whose pointer is null. -/
theorem Triple.resetOv {k k' : Stage} (hk : k.ends = true) (hk' : k'.ends = true) {i : Ov}
    (hset : ∀ (x : Slot) F, Balanced m x.account (k ::ₘ F) →
      Balanced m (Slot.account { x with session := x.session.setOv (x.session.ov i).reset i })
        (k' ::ₘ F)) :
    Triple m w h (k ::ₘ ks) (SessionManager.resetOv (World.port N) w i) (Same () (k' ::ₘ ks)) := by
  have hne : ∀ {j : Stage}, j.ends = true → j ≠ .seen := fun hj he => by
    subst he
    cases hj
  refine Triple.same_bind (K := k' ::ₘ ks) (b := ()) (Triple.modifySession
    (f := fun x => x.setOv (x.ov i).reset i) (pinned_cons (hne hk) ks) fun x F _ hbal => ?_) ?_
  · rw [Multiset.cons_add] at hbal ⊢
    exact hset x _ hbal
  · refine Triple.same_bind (K := k' ::ₘ ks) (b := false) ((Triple.readNull (pinned_cons (hne hk') ks)
      fun v F hbal => ?_).bind fun p K ⟨hpool, hK⟩ => ?_) (Triple.done ⟨rfl, rfl⟩)
    · rw [Multiset.cons_add] at hbal
      obtain ⟨hrefs, -, -⟩ := hbal.released_of_ends hk'
      have hr := hbal.refs
      cases i <;> simp only [Account.cell] <;> omega
    · subst hK
      dsimp only
      rw [hpool]
      exact Triple.done ⟨rfl, rfl⟩

/-- The deleter. -/
theorem Triple.deleter (hN : N < 2 ^ 32) :
    Triple m w h (.released ::ₘ ks) (SessionManager.deleter (World.port N) (whoOf h).toNat)
      (Same () (.untitled ::ₘ ks)) := by
  refine (Triple.slot hN (pinned_cons (by decide) ks)).same_bind ?_
  refine Triple.same_bind (K := .cleanedRead ::ₘ ks)
    (Triple.resetOv rfl rfl fun x F hbal => hbal.resetRead) ?_
  refine Triple.same_bind (K := .cleanedWrite ::ₘ ks)
    (Triple.resetOv rfl rfl fun x F hbal => hbal.resetWrite) ?_
  refine Triple.same_bind (K := .quieted ::ₘ ks) (b := ()) (Triple.modifySession
    (pinned_cons (by decide) ks) fun x F _ hbal => ?_) ?_
  · rw [Multiset.cons_add] at hbal ⊢
    exact hbal.quieten
  · refine Triple.update (fun s F hh hrepr hbal => ?_) (pinned_cons (by decide) ks)
    rw [Multiset.cons_add] at hbal
    refine ⟨_, .untitled ::ₘ ks, touch_setSession hrepr _, hh, .stay rfl rfl, ?_, rfl, rfl⟩
    rw [Multiset.cons_add]
    have haccount : Slot.account { s.slot w with
        session := { s.manager.session w with handle_ := kInvalidHandle } } =
        { (s.slot w).account with named := 0, unnamed := 1 } := by
      apply Account.ext
      case named =>
        exact Bool.toNat_eq_zero.mpr (decide_eq_false (handleAt_ne hN s.manager w).symm)
      all_goals rfl
    exact Eq.mpr (congrArg (fun v => Balanced _ v _) haccount) hbal.untitle

/-- The account after `Push`, of a slot without pointers. -/
theorem account_pushed {x : Slot} {handle : UInt64} (hstray : x.account.stray = 0)
    (hstate : x.account.pending = 0 ∧ x.account.connected = 0)
    (hentry : x.account.entry = 0) (hread : x.account.read = 0) (hwrite : x.account.write = 0)
    (hdisc : x.account.disc = 0) (hgone : x.account.unnamed = 1) (hhandle : handle ≠ kInvalidHandle) :
    Slot.account { x with
      handle := handle, state := 0, disconnects := 0, listening := false, dequeued := false } =
      { x.account with
        idle := 1, closing := 0, disconnects := 0, named := 0, listening := 0, dequeued := 0 } := by
  have hpe := Slot.null_entry hstray hentry
  have hpr := Slot.null_cell (i := .read) hstray hread
  have hpw := Slot.null_cell (i := .write) hstray hwrite
  have hpd := Slot.null_cell (i := .disconnect) hstray hdisc
  simp only [Session.ov] at hpr hpw hpd
  have hinvalid : x.session.handle_ = kInvalidHandle :=
    of_decide_eq_true (Bool.toNat_eq_one.mp hgone)
  apply Account.ext
  case stray =>
    refine Eq.trans ?_ hstray.symm
    simp only [Slot.account, stray_of_pool hpe, stray_of_pool hpr, stray_of_pool hpw,
      stray_of_pool hpd]
  case named => simp [Slot.account, hinvalid, hhandle.symm]
  case pending => exact hstate.1.symm
  case connected => exact hstate.2.symm
  case entry => exact (live_of_pool hpe).trans hentry.symm
  case read => exact (live_of_pool hpr).trans hread.symm
  case write => exact (live_of_pool hpw).trans hwrite.symm
  case disc => exact (live_of_pool hpd).trans hdisc.symm
  all_goals rfl

/-- `Push`: what was noted of the slot was noted under its handle, which is no longer current. -/
theorem Kept.push (hN : N < 2 ^ 32) {s : World N} {R : Multiset (Token N)}
    (hk : Kept m s (⟨.untitled, w, h⟩ ::ₘ R)) :
    ∃ set, s.manager.sessionPool_.set.push (s.manager.handleAt w) = some (true, set) ∧
      (∀ v, Evolves (s.slot v) ((s.setManager (s.manager.withSet set)).slot v)) ∧
      Kept m (s.setManager (s.manager.withSet set)) R := by
  have hbal := hk.balanced w
  rw [stagesAt_cons_self] at hbal
  obtain ⟨hrefs, hclosing, hseen⟩ := hbal.released_of_ends rfl
  have hstate := hbal.state
  have hcounted := hbal.refs
  have hhandle := hbal.handle
  have hgone := hbal.handleGone
  simp only [tally_cons, Stage.untitles, Bool.toNat_true] at hgone
  obtain ⟨hcalls, hlistening, hdequeued⟩ := hbal.noted
  have hcalled : (s.disconnects w).1 = s.manager.handleAt w := by
    by_contra hne
    have hnone : (s.slot w).account.disconnects = 0 := if_neg hne
    omega
  obtain ⟨b, hb⟩ := hk.repr
  obtain ⟨set, hpush, hleads⟩ := SparseSet.push_spec hN hb (by decide) w
  obtain ⟨hne, ht⟩ := touch_push hb hleads ⟨hcalled,
    of_decide_eq_true (Bool.toNat_eq_one.mp hlistening),
    of_decide_eq_true (Bool.toNat_eq_one.mp hdequeued)⟩
  refine ⟨set, hpush, fun v => ?_, ht.repr, fun t hmem hst => ?_, fun v => ?_, hk.created,
    hk.handled⟩
  · by_cases hv : v = w
    · rw [hv, ht.slot]
      exact .release (of_decide_eq_true (Bool.toNat_eq_one.mp hclosing)) rfl hne
    · rw [ht.other v hv]
      exact .stay rfl rfl
  · have hv : t.slot ≠ w := fun he => hst (hseen _ (he ▸ mem_stagesAt hmem))
    rw [hk.current t (Multiset.mem_cons_of_mem hmem) hst]
    exact (congrArg Slot.handle (ht.other _ hv)).symm
  · by_cases hv : v = w
    · rw [hv, ht.slot, account_pushed hbal.stray ⟨by omega, by omega⟩ (by omega) (by omega)
        (by omega) (by omega) (by omega) (handleAt_ne hN _ w)]
      exact hbal.push
    · have hbalv := hk.balanced v
      rw [stagesAt_cons_ne hv] at hbalv
      rw [ht.other v hv]
      exact hbalv

/-- The push of a last release. -/
theorem Triple.push (hN : N < 2 ^ 32) :
    Triple m w h (.untitled ::ₘ ks)
      ((pool (World.port N)).pool.update (SparsePool.onSet fun s => s.push h)) (Kind ks) :=
  fun S hS => Safe.action (about_tokensAt hS) fun s F _ hk => by
    have hk' : Kept m s (⟨.untitled, w, h⟩ ::ₘ (tokensAt w h ks + S + F)) := by
      rw [tokensAt_cons, Multiset.cons_add, Multiset.cons_add] at hk
      exact hk
    have hh : h = s.manager.handleAt w := hk'.current _ (Multiset.mem_cons_self _ _) fun he => by cases he
    obtain ⟨set, hpush, hev, hkept⟩ := hk'.push hN
    have hlocked : SparsePool.onSet (fun x => x.push h) s.manager.sessionPool_ =
        .ok (true, { s.manager.sessionPool_ with set }) := by
      rw [SparsePool.onSet, hh, hpush]
      rfl
    change Prog.wp _ _ ((pool (World.port N)).pool.update _) _ _
    rw [Prog.wp_lens_update hlocked]
    exact fun _ => ⟨hev, tokensAt w h ks + S, hkept, about_tokensAt hS, ks, S, hS, rfl, rfl⟩

/-- `ReleaseRef` of the handle by a thread with a pointer, which may be the last. -/
theorem Triple.releaseRef (hN : N < 2 ^ 32) :
    Triple m w h (.ref ::ₘ ks) (SparsePool.releaseRef (pool (World.port N)) h) (Kind ks) := by
  refine (Triple.isValid hN (pinned_cons (by decide) ks)).same_bind ?_
  refine (Triple.fetchSub hN).bind fun n K hn => ?_
  rcases hn with ⟨rfl, rfl⟩ | ⟨hn, rfl⟩
  · refine (Triple.deleter hN).same_bind ((Triple.push hN).kind_bind fun _ => ?_)
    exact Triple.done rfl
  · exact Triple.ite (fun h1 => absurd h1 hn) fun _ => Triple.done rfl

/-- Destroying a pointer of the thread's own, which may be the last. -/
theorem Triple.destroy (hN : N < 2 ^ 32)
    {Q : Unit → Multiset Stage → Prop} (hq : Q () ks) :
    Triple m w h (.ref ::ₘ ks) (SessionManager.destroy (World.port N) ⟨true, h⟩) Q :=
  (Triple.isValid hN (pinned_cons (by decide) ks)).same_bind
    ((Triple.releaseRef hN).kind_bind fun _ => Triple.done hq)

end Server

end ServerStudy
