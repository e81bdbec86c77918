import ServerStudy.SessionManager
import ServerStudy.SparseSet.Repr

/-!
# ServerStudy.SessionManager.Pointers

What the operations on a `SharedPoolPtr` do to the manager's memory, each as a
function of that memory: `retain` and `discount` for the count of a slot, and
`recycle` for the whole of a last release, deleter and `Push` included.

The rules are equations on `wp`, for a run of the operation without
interference.
-/

namespace ServerStudy

namespace SessionManager

variable {N : Nat}

/-! ## the memory -/

section Memory

variable (m : SessionManager N) (w : Fin N)

/-- The current handle of a slot. -/
def handleAt : UInt64 := m.sessionPool_.set.handleAt w

/-- The state of a slot. -/
def state : Nat := (m.sessionPool_.set.sparse_ w).state_

/-- `refCount_` of a slot. -/
def refCount : Nat := m.sessionPool_.refCount_ w

/-- Write `refCount_` of a slot. -/
def recount (n : Nat) : SessionManager N :=
  { m with sessionPool_.refCount_ := Function.update m.sessionPool_.refCount_ w n }

/-- One more pointer to a slot. -/
def retain : SessionManager N := m.recount w (m.refCount w + 1)

/-- One pointer to a slot less. -/
def discount : SessionManager N := m.recount w (m.refCount w - 1)

/-- Replace the set of handles. -/
def withSet (set : SparseSet N SessionState.kCnt) : SessionManager N :=
  { m with sessionPool_.set := set }

/-- Write `sessionPtrs_[w]`. -/
def setPtr (p : SharedPoolPtr) : SessionManager N :=
  { m with sessionPtrs_ := Function.update m.sessionPtrs_ w p }

/-- Replace a session. -/
def setSession (x : Session) : SessionManager N :=
  { m with session := Function.update m.session w x }

/-- Write `sessionPtr_` of one of a session's three `OverlappedEx`. -/
def setOvPtr (i : Ov) (p : SharedPoolPtr) : SessionManager N :=
  m.setSession w ((m.session w).setOv { (m.session w).ov i with sessionPtr_ := p } i)

/-- A session after the deleter. -/
def finalized (x : Session) : Session :=
  { x with
    readOv_ := x.readOv_.reset
    writeOv_ := x.writeOv_.reset
    isSending_ := false
    handle_ := kInvalidHandle }

/-- `Push` of a slot's handle. -/
def push : SessionManager N :=
  match m.sessionPool_.set.push (m.handleAt w) with
  | some (_, s) => { m with sessionPool_.set := s }
  | none => m

/-- `Acquire` of a slot, which leaves `set`. -/
def acquired (set : SparseSet N SessionState.kCnt) : SessionManager N :=
  retain { m with
    sessionPool_.set := set
    sessionPool_.handle_ := Function.update m.sessionPool_.handle_ w (m.handleAt w) } w

/-- The last release of a slot. -/
def recycle : SessionManager N := ((m.discount w).setSession w (finalized (m.session w))).push w

end Memory

@[simp] theorem session_setSession (m : SessionManager N) (w : Fin N) (x : Session) :
    (m.setSession w x).session w = x := Function.update_self _ _ _

@[simp] theorem setSession_setSession (m : SessionManager N) (w : Fin N) (x y : Session) :
    (m.setSession w x).setSession w y = m.setSession w y := by
  simp only [setSession, Function.update_idem]

/-- Where `Repr` holds, `Push` succeeds. -/
theorem push_eq (hN : N < 2 ^ 32) {m : SessionManager N} (w : Fin N)
    (hrepr : ∃ b, SparseSet.Repr m.sessionPool_.set b) :
    ∃ s, m.sessionPool_.set.push (m.handleAt w) = some (true, s) ∧
      m.push w = { m with sessionPool_.set := s } := by
  obtain ⟨b, hb⟩ := hrepr
  obtain ⟨s, hs, -⟩ := SparseSet.push_spec hN hb (by decide) w
  have hs' : m.sessionPool_.set.push (m.handleAt w) = some (true, s) := hs
  exact ⟨s, hs', by rw [push, hs']⟩

/-- What is left after a last release: the slot is idle, a generation on. -/
theorem recycle_eq (hN : N < 2 ^ 32) {m : SessionManager N} (w : Fin N)
    {b : Blocks N SessionState.kCnt} (hrepr : SparseSet.Repr m.sessionPool_.set b) :
    ∃ set, SparseSet.Leads set (Function.update b.block w ⟨0, by decide⟩)
        (Function.update m.sessionPool_.set.gen w (m.sessionPool_.set.gen w + 1)) ∧
      m.recycle w =
        (((m.discount w).setSession w (finalized (m.session w))).withSet set) := by
  obtain ⟨set, hset, hleads⟩ := SparseSet.push_spec hN hrepr (by decide) w
  refine ⟨set, hleads, ?_⟩
  have hpush : ((m.discount w).setSession w (finalized (m.session w))).sessionPool_.set.push
      (((m.discount w).setSession w (finalized (m.session w))).handleAt w) = some (true, set) := hset
  rw [recycle, push, hpush]
  rfl

/-! ## the pool's operations -/

section Operations

variable {σ : Type} {Q : Type → Type} {P : ServerPort σ Q N} {ok : Answers σ Q}
  {bad : Fault → Prop} {s : σ} {w : Fin N}

@[simp] theorem wp_isValid (h : UInt64) (post : Bool → σ → Prop) (s : σ) :
    Prog.wp ok bad (SparsePool.isValid (pool P) h) post s ↔
      post ((P.manager.get s).sessionPool_.set.isValid h) s := Iff.rfl

theorem isValid_handleAt (hN : N < 2 ^ 32) (m : SessionManager N) (w : Fin N) :
    m.sessionPool_.set.isValid (m.handleAt w) = true := SparseSet.isValid_handleAt hN _ w

theorem toNat_whoOf (hN : N < 2 ^ 32) (m : SessionManager N) (w : Fin N) :
    (whoOf (m.handleAt w)).toNat = w := SparseSet.toNat_whoOf_handleAt hN _ w

/-- `AddRef` of a current handle. -/
theorem wp_addRef (hN : N < 2 ^ 32) {post : Bool → σ → Prop} {h : UInt64}
    (hh : h = (P.manager.get s).handleAt w) :
    Prog.wp ok bad (SparsePool.addRef (pool P) h) post s ↔
      post true (P.manager.set ((P.manager.get s).retain w) s) := by
  subst hh
  unfold SparsePool.addRef
  rw [Prog.bind_eq, Prog.wp_bind, wp_isValid, isValid_handleAt hN]
  simp only [Bool.not_true, Bool.false_eq_true, if_false, Prog.bind_eq, Prog.wp_bind]
  rw [toNat_whoOf hN]
  rw [Prog.wp_lens_update (SparsePool.fetchAdd_val ((pool P).pool.get s) w)]
  rfl

/-- `AddRef` of another. -/
theorem wp_addRef_stale {post : Bool → σ → Prop} {h : UInt64}
    (hh : (P.manager.get s).sessionPool_.set.isValid h = false) :
    Prog.wp ok bad (SparsePool.addRef (pool P) h) post s ↔ post false s := by
  unfold SparsePool.addRef
  rw [Prog.bind_eq, Prog.wp_bind, wp_isValid, hh]
  rfl

/-- `ReleaseRef` of a handle that is not current. -/
theorem wp_releaseRef_stale {post : Bool → σ → Prop} {h : UInt64}
    (hh : (P.manager.get s).sessionPool_.set.isValid h = false) :
    Prog.wp ok bad (SparsePool.releaseRef (pool P) h) post s ↔ post false s := by
  unfold SparsePool.releaseRef
  rw [Prog.bind_eq, Prog.wp_bind, wp_isValid, hh]
  rfl

/-- `ReleaseRef` while other pointers are counted. -/
theorem wp_releaseRef_many (hN : N < 2 ^ 32) {post : Bool → σ → Prop} {h : UInt64}
    (hh : h = (P.manager.get s).handleAt w) (hcount : 1 < (P.manager.get s).refCount w) :
    Prog.wp ok bad (SparsePool.releaseRef (pool P) h) post s ↔
      post false (P.manager.set ((P.manager.get s).discount w) s) := by
  subst hh
  unfold SparsePool.releaseRef
  rw [Prog.bind_eq, Prog.wp_bind, wp_isValid, isValid_handleAt hN]
  simp only [Bool.not_true, Bool.false_eq_true, if_false, Prog.bind_eq, Prog.wp_bind]
  rw [toNat_whoOf hN]
  have hsub := SparsePool.fetchSub_val ((pool P).pool.get s) w (Nat.lt_of_lt_of_le Nat.one_pos hcount.le)
  rw [Prog.wp_lens_update hsub]
  change Prog.wp ok bad (if (P.manager.get s).refCount w = 1 then _ else _) post _ ↔ _
  rw [if_neg (by omega)]
  rfl

/-- The memory is written twice in a row. -/
theorem set_set (hP : P.manager.Lawful) (m m' : SessionManager N) :
    P.manager.set m (P.manager.set m' s) = P.manager.set m s := hP.set_set m m' s

@[simp] theorem wp_session_modify (f : Session → Session) (post : Unit → σ → Prop) (s : σ) :
    Prog.wp ok bad ((sessionLens P w).modify f) post s ↔
      post () (P.manager.set ((P.manager.get s).setSession w (f ((P.manager.get s).session w))) s) :=
  Iff.rfl

theorem ptrLens_get (s : σ) : (ptrLens P w).get s = (P.manager.get s).sessionPtrs_ w := rfl

theorem ptrLens_set (p : SharedPoolPtr) (s : σ) :
    (ptrLens P w).set p s = P.manager.set ((P.manager.get s).setPtr w p) s := rfl

/-- `Reset` of an `OverlappedEx` whose pointer is not to a current slot. -/
theorem wp_resetOv {i : Ov} {post : Unit → σ → Prop}
    (hstale : let p := (((P.manager.get s).session w).ov i).sessionPtr_
      p.pool_ = true → (P.manager.get s).sessionPool_.set.isValid p.handle_ = false) :
    Prog.wp ok bad (resetOv P w i) post s ↔
      post () (P.manager.set ((P.manager.get s).setSession w
        (((P.manager.get s).session w).setOv (((P.manager.get s).session w).ov i).reset i)) s) := by
  generalize hm : P.manager.get s = m at hstale ⊢
  unfold resetOv
  rw [Prog.bind_eq, Prog.wp_bind, Prog.wp_lens_modify, Prog.bind_eq, Prog.wp_bind]
  generalize hs₁ : ((sessionLens P w).comp (Session.ovLens i)).set _ s = s₁
  have hm₁ : s₁ = P.manager.set (m.setSession w ((m.session w).setOv ((m.session w).ov i).reset i)) s := by
    rw [← hs₁, ← hm]
    rfl
  have hp : (ovPtrLens P w i).get s₁ = ((m.session w).ov i).sessionPtr_ := by
    rw [hm₁]
    simp only [ovPtrLens, sessionLens, Lens.comp, P.manager.get_set, setSession, Lens.element,
      Function.update_self, Session.ovLens, Session.ov_setOv, OverlappedEx.sessionPtr]
    rfl
  have hvalid : (P.manager.get s₁).sessionPool_ = m.sessionPool_ := by
    rw [hm₁, P.manager.get_set]
    rfl
  rw [← hm₁]
  unfold SharedPoolPtr.reset
  rw [Prog.bind_eq, Prog.wp_bind, Prog.wp_lens_read, hp]
  simp only [id_eq]
  cases hpool : ((m.session w).ov i).sessionPtr_.pool_ with
  | false => exact Iff.rfl
  | true =>
      have hinvalid := hstale hpool
      rw [← hvalid] at hinvalid
      simp only [if_true, Prog.bind_eq, Prog.wp_bind]
      change Prog.wp ok bad (if (P.manager.get s₁).sessionPool_.set.isValid _ = true then _ else _)
        _ s₁ ↔ _
      rw [hinvalid]
      exact Iff.rfl

/-- The deleter of `SessionManager`. -/
theorem wp_deleter (hP : P.manager.Lawful) {post : Unit → σ → Prop}
    (hstale : ∀ i, i ≠ .disconnect → let p := (((P.manager.get s).session w).ov i).sessionPtr_
      p.pool_ = true → (P.manager.get s).sessionPool_.set.isValid p.handle_ = false) :
    Prog.wp ok bad (deleter P w) post s ↔
      post () (P.manager.set ((P.manager.get s).setSession w
        (finalized ((P.manager.get s).session w))) s) := by
  unfold deleter
  rw [dif_pos w.isLt, Prog.bind_eq, Prog.wp_bind, Prog.wp_lift_ok, Prog.bind_eq, Prog.wp_bind,
    wp_resetOv (hstale .read (by decide)), Prog.bind_eq, Prog.wp_bind, wp_resetOv (by
      rw [P.manager.get_set, session_setSession, Session.ov_setOv_ne _ _ (by decide)]
      exact hstale .write (by decide)), Prog.bind_eq, Prog.wp_bind, wp_session_modify,
    wp_session_modify]
  simp only [P.manager.get_set, session_setSession, setSession_setSession, set_set hP]
  rfl

/-- `ReleaseRef` of the last pointer to a slot. -/
theorem wp_releaseRef_last (hN : N < 2 ^ 32) (hP : P.manager.Lawful) {post : Bool → σ → Prop}
    {h : UInt64} (hh : h = (P.manager.get s).handleAt w)
    (hcount : (P.manager.get s).refCount w = 1)
    (hrepr : ∃ b, SparseSet.Repr (P.manager.get s).sessionPool_.set b)
    (hstale : ∀ i, i ≠ .disconnect → let p := (((P.manager.get s).session w).ov i).sessionPtr_
      p.pool_ = true → (P.manager.get s).sessionPool_.set.isValid p.handle_ = false) :
    Prog.wp ok bad (SparsePool.releaseRef (pool P) h) post s ↔
      Prog.wp ok bad P.postRelease (fun _ s' => post true s')
        (P.manager.set ((P.manager.get s).recycle w) s) := by
  subst hh
  unfold SparsePool.releaseRef
  rw [Prog.bind_eq, Prog.wp_bind, wp_isValid, isValid_handleAt hN]
  simp only [Bool.not_true, Bool.false_eq_true, if_false, Prog.bind_eq, Prog.wp_bind]
  rw [toNat_whoOf hN]
  have hsub := SparsePool.fetchSub_val ((pool P).pool.get s) w (by
    change 0 < (P.manager.get s).refCount w
    omega)
  rw [Prog.wp_lens_update hsub]
  change Prog.wp ok bad (if (P.manager.get s).refCount w = 1 then _ else _) post
    (P.manager.set ((P.manager.get s).discount w) s) ↔ _
  rw [if_pos hcount, Prog.wp_bind]
  change Prog.wp ok bad (deleter P w) _ _ ↔ _
  rw [wp_deleter hP (by
    rw [P.manager.get_set]
    exact hstale), P.manager.get_set, set_set hP]
  change Prog.wp ok bad _ _ (P.manager.set (((P.manager.get s).discount w).setSession w
    (finalized ((P.manager.get s).session w))) s) ↔ _
  -- `Push` of the handle, which is still current
  obtain ⟨set, hpush, heq⟩ := push_eq (m := ((P.manager.get s).discount w).setSession w
    (finalized ((P.manager.get s).session w))) hN w hrepr
  have hlocked : SparsePool.onSet (fun x => x.push ((P.manager.get s).handleAt w))
      ((pool P).pool.get (P.manager.set (((P.manager.get s).discount w).setSession w
        (finalized ((P.manager.get s).session w))) s)) =
      .ok (true, { ((P.manager.get s).discount w).sessionPool_ with set }) := by
    have hget : (pool P).pool.get (P.manager.set (((P.manager.get s).discount w).setSession w
        (finalized ((P.manager.get s).session w))) s) =
        ((P.manager.get s).discount w).sessionPool_ := by
      change (P.manager.get (P.manager.set _ s)).sessionPool_ = _
      rw [P.manager.get_set]
      rfl
    have hpush' : ((P.manager.get s).discount w).sessionPool_.set.push
        ((P.manager.get s).handleAt w) = some (true, set) := hpush
    rw [hget, SparsePool.onSet, hpush']
    rfl
  rw [Prog.wp_bind, Prog.wp_lens_update hlocked, Prog.wp_bind]
  have hset : (pool P).pool.set { ((P.manager.get s).discount w).sessionPool_ with set }
      (P.manager.set (((P.manager.get s).discount w).setSession w
        (finalized ((P.manager.get s).session w))) s) =
      P.manager.set ((P.manager.get s).recycle w) s := by
    change P.manager.set _ (P.manager.set _ s) = _
    rw [set_set hP, P.manager.get_set, recycle, heq]
    rfl
  rw [hset]
  rfl

end Operations

/-! ## the pointers' operations -/

/-- A pointer carries the current handle of a slot. -/
def Live (m : SessionManager N) (w : Fin N) (p : SharedPoolPtr) : Prop := p = ⟨true, m.handleAt w⟩

/-- A pointer is null, or its handle is not current. -/
def Dead (m : SessionManager N) (p : SharedPoolPtr) : Prop :=
  p.pool_ = true → m.sessionPool_.set.isValid p.handle_ = false

theorem dead_null (m : SessionManager N) : Dead m .null := fun h => absurd h Bool.false_ne_true

theorem dead_of_pool {m : SessionManager N} {p : SharedPoolPtr} (h : p.pool_ = false) : Dead m p :=
  fun h' => absurd (h.symm.trans h') Bool.false_ne_true

section Pointers

variable {σ : Type} {Q : Type → Type} {P : ServerPort σ Q N} {ok : Answers σ Q}
  {bad : Fault → Prop} {s : σ} {w : Fin N} {p : SharedPoolPtr} {this : Lens σ SharedPoolPtr}

/-- `IsValid` of a live pointer. -/
theorem wp_ptrIsValid_live (hN : N < 2 ^ 32) (hp : Live (P.manager.get s) w p)
    {post : Bool → σ → Prop} :
    Prog.wp ok bad (SharedPoolPtr.isValid (pool P) p) post s ↔ post true s := by
  subst hp
  change post ((P.manager.get s).sessionPool_.set.isValid ((P.manager.get s).handleAt w)) s ↔ _
  rw [isValid_handleAt hN]

/-- `IsValid` of a dead one. -/
theorem wp_ptrIsValid_dead (hp : Dead (P.manager.get s) p) {post : Bool → σ → Prop} :
    Prog.wp ok bad (SharedPoolPtr.isValid (pool P) p) post s ↔ post false s := by
  obtain ⟨pool_, handle_⟩ := p
  cases pool_ with
  | false => exact Iff.rfl
  | true =>
      change post ((P.manager.get s).sessionPool_.set.isValid handle_) s ↔ _
      rw [hp rfl]

/-- The slot of a current handle. -/
theorem wp_slot (hN : N < 2 ^ 32) (m : SessionManager N) {post : Fin N → σ → Prop} :
    Prog.wp ok bad (slot (m.handleAt w) : Prog σ Q Fault (Fin N)) post s ↔ post w s := by
  have hwho := toNat_whoOf hN m w
  have hlt : (whoOf (m.handleAt w)).toNat < N := hwho ▸ w.isLt
  have hslot : (⟨_, hlt⟩ : Fin N) = w := Fin.ext hwho
  unfold slot
  rw [dif_pos hlt, Prog.wp_lift_ok, hslot]

/-- `operator->` of a live pointer. -/
theorem wp_deref_live (hN : N < 2 ^ 32) (hp : Live (P.manager.get s) w p)
    {post : Fin N → σ → Prop} : Prog.wp ok bad (deref P p) post s ↔ post w s := by
  have hvalid := isValid_handleAt hN (P.manager.get s) w
  subst hp
  unfold deref derefOr
  rw [Prog.bind_eq, Prog.wp_bind, wp_ptrIsValid_live hN rfl]
  simp only [Bool.not_true, Bool.false_eq_true, if_false, Prog.bind_eq, Prog.wp_bind, wp_isValid,
    hvalid]
  exact wp_slot hN _

/-- A turn of `Broadcast` whose entry is live. -/
theorem wp_sendTo_live (hN : N < 2 ^ 32)
    (hp : Live (P.manager.get s) w ((ptrLens P w).get s))
    {send : UInt64 → Fin N → Prog σ Q Fault Bool} {post : Unit → σ → Prop} :
    Prog.wp ok bad (sendTo P send ((P.manager.get s).handleAt w)) post s ↔
      Prog.wp ok bad (send ((P.manager.get s).handleAt w) w) (fun _ => post ()) s := by
  unfold sendTo sendBy
  rw [Prog.bind_eq, Prog.wp_bind]
  refine (wp_slot hN _).trans ?_
  rw [Prog.bind_eq, Prog.wp_bind, Prog.wp_lens_read, id_eq, Prog.bind_eq, Prog.wp_bind,
    wp_ptrIsValid_live hN hp, if_pos rfl, Prog.bind_eq, Prog.wp_bind]
  beta_reduce
  rw [Prog.bind_eq, Prog.wp_bind, Prog.wp_lens_read, id_eq, wp_deref_live hN hp, Prog.bind_eq,
    Prog.wp_bind]
  rfl

/-- A turn whose entry is dead sends nothing. -/
theorem wp_sendTo_dead (hN : N < 2 ^ 32) (hp : Dead (P.manager.get s) ((ptrLens P w).get s))
    {send : UInt64 → Fin N → Prog σ Q Fault Bool} {post : Unit → σ → Prop} :
    Prog.wp ok bad (sendTo P send ((P.manager.get s).handleAt w)) post s ↔ post () s := by
  unfold sendTo sendBy
  rw [Prog.bind_eq, Prog.wp_bind]
  refine (wp_slot hN _).trans ?_
  rw [Prog.bind_eq, Prog.wp_bind, Prog.wp_lens_read, id_eq, Prog.bind_eq, Prog.wp_bind,
    wp_ptrIsValid_dead hp]
  rfl

/-- Copying a live pointer counts one more. -/
theorem wp_copy_live (hN : N < 2 ^ 32) (hp : Live (P.manager.get s) w p)
    {post : SharedPoolPtr → σ → Prop} :
    Prog.wp ok bad (SharedPoolPtr.copy (pool P) p) post s ↔
      post p (P.manager.set ((P.manager.get s).retain w) s) := by
  have hpool : p.pool_ = true := by rw [hp]
  have hhandle : p.handle_ = (P.manager.get s).handleAt w := by rw [hp]
  unfold SharedPoolPtr.copy
  simp only [hpool, if_true, Prog.bind_eq, Prog.wp_bind, Prog.pure_eq]
  rw [wp_addRef hN hhandle]
  exact Iff.rfl

/-- Copying a dead one counts nothing. -/
theorem wp_copy_dead (hp : Dead (P.manager.get s) p) {post : SharedPoolPtr → σ → Prop} :
    Prog.wp ok bad (SharedPoolPtr.copy (pool P) p) post s ↔ post p s := by
  unfold SharedPoolPtr.copy
  cases hpool : p.pool_ with
  | false => exact Iff.rfl
  | true =>
      simp only [if_true, Prog.bind_eq, Prog.wp_bind, Prog.pure_eq]
      rw [wp_addRef_stale (hp hpool)]
      exact Iff.rfl

theorem wp_copyOf {post : SharedPoolPtr → σ → Prop} :
    Prog.wp ok bad (copyOf P this) post s ↔
      Prog.wp ok bad (SharedPoolPtr.copy (pool P) (this.get s)) post s := Iff.rfl

/-- `ReleaseRef` of a live pointer while there are others. -/
theorem wp_release_many (hN : N < 2 ^ 32) (hp : Live (P.manager.get s) w p)
    (hcount : 1 < (P.manager.get s).refCount w) {post : Bool → σ → Prop} :
    Prog.wp ok bad (SparsePool.releaseRef (pool P) p.handle_) post s ↔
      post false (P.manager.set ((P.manager.get s).discount w) s) :=
  wp_releaseRef_many hN (by rw [hp]) hcount

/-- Destroying a live pointer while there are others. -/
theorem wp_destroy_many (hN : N < 2 ^ 32) (hp : Live (P.manager.get s) w p)
    (hcount : 1 < (P.manager.get s).refCount w) {post : Unit → σ → Prop} :
    Prog.wp ok bad (destroy P p) post s ↔
      post () (P.manager.set ((P.manager.get s).discount w) s) := by
  have hpool : p.pool_ = true := by rw [hp]
  have hvalid : (P.manager.get s).sessionPool_.set.isValid p.handle_ = true := by
    rw [hp]
    exact isValid_handleAt hN _ w
  unfold destroy SharedPoolPtr.destroy
  simp only [hpool, if_true, Prog.bind_eq, Prog.wp_bind, wp_isValid, hvalid]
  rw [wp_release_many hN hp hcount]
  exact Iff.rfl

/-- Destroying the last live pointer to a slot. -/
theorem wp_destroy_last (hN : N < 2 ^ 32) (hP : P.manager.Lawful)
    (hp : Live (P.manager.get s) w p) (hcount : (P.manager.get s).refCount w = 1)
    (hrepr : ∃ b, SparseSet.Repr (P.manager.get s).sessionPool_.set b)
    (hdead : ∀ i, i ≠ .disconnect →
      Dead (P.manager.get s) (((P.manager.get s).session w).ov i).sessionPtr_)
    {post : Unit → σ → Prop} :
    Prog.wp ok bad (destroy P p) post s ↔
      Prog.wp ok bad P.postRelease (fun _ s' => post () s')
        (P.manager.set ((P.manager.get s).recycle w) s) := by
  have hpool : p.pool_ = true := by rw [hp]
  have hhandle : p.handle_ = (P.manager.get s).handleAt w := by rw [hp]
  have hvalid : (P.manager.get s).sessionPool_.set.isValid p.handle_ = true := by
    rw [hp]
    exact isValid_handleAt hN _ w
  unfold destroy SharedPoolPtr.destroy
  simp only [hpool, if_true, Prog.bind_eq, Prog.wp_bind, wp_isValid, hvalid]
  rw [wp_releaseRef_last hN hP hhandle hcount hrepr hdead]
  exact Iff.rfl

/-- Destroying a dead pointer. -/
theorem wp_destroy_dead (hp : Dead (P.manager.get s) p) {post : Unit → σ → Prop} :
    Prog.wp ok bad (destroy P p) post s ↔ post () s := by
  unfold destroy SharedPoolPtr.destroy
  cases hpool : p.pool_ with
  | false => exact Iff.rfl
  | true =>
      simp only [if_true, Prog.bind_eq, Prog.wp_bind, wp_isValid, hp hpool]
      exact Iff.rfl

/-- Assigning over a dead pointer. -/
theorem wp_assign_dead {q : SharedPoolPtr} (hp : Dead (P.manager.get s) (this.get s))
    {post : Unit → σ → Prop} :
    Prog.wp ok bad (assign P this q) post s ↔ post () (this.set q s) := by
  unfold assign SharedPoolPtr.moveAssignTemp
  rw [Prog.bind_eq, Prog.wp_bind, Prog.wp_lens_read]
  simp only [id_eq]
  cases hpool : (this.get s).pool_ with
  | false => exact Iff.rfl
  | true =>
      simp only [if_true, Prog.bind_eq, Prog.wp_bind]
      rw [wp_releaseRef_stale (hp hpool)]
      exact Iff.rfl

/-- `Reset` of a dead pointer changes nothing. -/
theorem wp_reset_dead (hp : Dead (P.manager.get s) (this.get s)) {post : Unit → σ → Prop} :
    Prog.wp ok bad (reset P this) post s ↔ post () s := by
  unfold reset SharedPoolPtr.reset
  rw [Prog.bind_eq, Prog.wp_bind, Prog.bind_eq, Prog.wp_bind, Prog.wp_lens_read]
  simp only [id_eq]
  cases hpool : (this.get s).pool_ with
  | false => exact Iff.rfl
  | true =>
      simp only [if_true, Prog.bind_eq, Prog.wp_bind, wp_isValid, hp hpool]
      exact Iff.rfl

/-- `Reset` of a live pointer while there are others makes it null. -/
theorem wp_reset_many (hN : N < 2 ^ 32) (hp : Live (P.manager.get s) w (this.get s))
    (hcount : 1 < (P.manager.get s).refCount w) {post : Unit → σ → Prop} :
    Prog.wp ok bad (reset P this) post s ↔
      post () (this.set .null (P.manager.set ((P.manager.get s).discount w) s)) := by
  have hpool : (this.get s).pool_ = true := by rw [hp]
  have hvalid : (P.manager.get s).sessionPool_.set.isValid (this.get s).handle_ = true := by
    rw [hp]
    exact isValid_handleAt hN _ w
  unfold reset SharedPoolPtr.reset
  rw [Prog.bind_eq, Prog.wp_bind, Prog.bind_eq, Prog.wp_bind, Prog.wp_lens_read]
  simp only [id_eq, hpool, if_true, Prog.bind_eq, Prog.wp_bind, wp_isValid, hvalid]
  rw [wp_release_many hN hp hcount]
  exact Iff.rfl

/-- `Reset` of the last live pointer to a slot leaves it as it is. -/
theorem wp_reset_last (hN : N < 2 ^ 32) (hP : P.manager.Lawful)
    (hp : Live (P.manager.get s) w (this.get s)) (hcount : (P.manager.get s).refCount w = 1)
    (hrepr : ∃ b, SparseSet.Repr (P.manager.get s).sessionPool_.set b)
    (hdead : ∀ i, i ≠ .disconnect →
      Dead (P.manager.get s) (((P.manager.get s).session w).ov i).sessionPtr_)
    {post : Unit → σ → Prop} :
    Prog.wp ok bad (reset P this) post s ↔
      Prog.wp ok bad P.postRelease (fun _ s' => post () s')
        (P.manager.set ((P.manager.get s).recycle w) s) := by
  have hpool : (this.get s).pool_ = true := by rw [hp]
  have hhandle : (this.get s).handle_ = (P.manager.get s).handleAt w := by rw [hp]
  have hvalid : (P.manager.get s).sessionPool_.set.isValid (this.get s).handle_ = true := by
    rw [hp]
    exact isValid_handleAt hN _ w
  unfold reset SharedPoolPtr.reset
  rw [Prog.bind_eq, Prog.wp_bind, Prog.bind_eq, Prog.wp_bind, Prog.wp_lens_read]
  simp only [id_eq, hpool, if_true, Prog.bind_eq, Prog.wp_bind, wp_isValid, hvalid]
  rw [wp_releaseRef_last hN hP hhandle hcount hrepr hdead]
  exact Iff.rfl

end Pointers

/-! ## acquiring and moving -/

section Acquire

variable {σ : Type} {Q : Type → Type} {P : ServerPort σ Q N} {ok : Answers σ Q}
  {bad : Fault → Prop} {s : σ}

/-- The handle of a slot follows its generation. -/
theorem handleAt_eq {m m' : SessionManager N} {w : Fin N}
    (h : m'.sessionPool_.set.gen w = m.sessionPool_.set.gen w) : m'.handleAt w = m.handleAt w := by
  simp only [handleAt, SparseSet.handleAt, h]

/-- The section of `Acquire`: it takes a slot that is idle, or there is none. -/
theorem popLocked_cases (hN : N < 2 ^ 32) {m : SessionManager N} {b : Blocks N SessionState.kCnt}
    (hrepr : SparseSet.Repr m.sessionPool_.set b) (x : Fin SessionState.kCnt) :
    (∃ w set, m.state w = 0 ∧
      SparseSet.Leads set (Function.update b.block w x) m.sessionPool_.set.gen ∧
      SparsePool.popLocked x m.sessionPool_ =
        .ok ((m.handleAt w, true), (m.withSet set).sessionPool_)) ∨
      SparsePool.popLocked x m.sessionPool_ = .ok ((kInvalidHandle, false), m.sessionPool_) := by
  by_cases hidle : ∃ w, (b.block w : Nat) = 0
  · obtain ⟨w, set, hw, hpop, hleads⟩ := SparseSet.pop_spec hN hrepr x hidle
    have hstate : m.state w = 0 := by rw [state, hrepr.state, hw]
    have hgen : set.gen = m.sessionPool_.set.gen := hleads.2
    have hh : m.sessionPool_.set.handleAt w = set.handleAt w := by
      simp only [SparseSet.handleAt, hgen]
    refine .inl ⟨w, set, hstate, hleads, ?_⟩
    change (SparsePool.onSet (fun y => y.pop x) m.sessionPool_).map _ = _
    rw [SparsePool.onSet, hpop]
    change Except.ok ((m.handleAt w, set.isValid (m.handleAt w)), _) = _
    have hvalid : set.isValid (m.handleAt w) = true := by
      rw [handleAt, hh]
      exact SparseSet.isValid_handleAt hN set w
    rw [hvalid]
    rfl
  · have hpop : m.sessionPool_.set.pop x = some (kInvalidHandle, m.sessionPool_.set) :=
      SparseSet.pop_empty hrepr (by decide) x.isLt fun w hw => hidle ⟨w, hw⟩
    refine .inr ?_
    change (SparsePool.onSet (fun y => y.pop x) m.sessionPool_).map _ = _
    rw [SparsePool.onSet, hpop]
    change Except.ok ((kInvalidHandle, m.sessionPool_.set.isValid kInvalidHandle), _) = _
    rw [SparseSet.isValid_kInvalidHandle hN]

/-- `slot->handle_ = handle` for the handle of a slot. -/
theorem setHandle_val (hN : N < 2 ^ 32) (m : SessionManager N) (w : Fin N) :
    SparsePool.setHandle (whoOf (m.handleAt w)).toNat (m.handleAt w) m.sessionPool_ =
      .ok ((), { m.sessionPool_ with
        handle_ := Function.update m.sessionPool_.handle_ w (m.handleAt w) }) := by
  rw [toNat_whoOf hN, SparsePool.setHandle, FixedArray.set?_val]
  rfl

/-- `Acquire`: no slot is idle, or it takes one that is. -/
theorem wp_acquire (hN : N < 2 ^ 32) (hP : P.manager.Lawful) {b : Blocks N SessionState.kCnt}
    (hrepr : SparseSet.Repr (P.manager.get s).sessionPool_.set b) (x : Fin SessionState.kCnt)
    {post : SharedPoolPtr → σ → Prop} (hnone : post .null s)
    (hsome : ∀ w set, (P.manager.get s).state w = 0 →
      SparseSet.Leads set (Function.update b.block w x) (P.manager.get s).sessionPool_.set.gen →
      post ⟨true, (P.manager.get s).handleAt w⟩
        (P.manager.set ((P.manager.get s).acquired w set) s)) :
    Prog.wp ok bad (SparsePool.acquire (pool P) x) post s := by
  unfold SparsePool.acquire
  rw [Prog.bind_eq, Prog.wp_bind]
  rcases popLocked_cases hN hrepr x with ⟨w, set, hstate, hleads, hlocked⟩ | hlocked
  · have hlocked' : SparsePool.popLocked x ((pool P).pool.get s) = _ := hlocked
    rw [Prog.wp_lens_update hlocked']
    have h₁ := hsome w set hstate hleads
    have hh : ((P.manager.get s).withSet set).handleAt w = (P.manager.get s).handleAt w :=
      handleAt_eq (congrFun hleads.2 w)
    generalize hm : P.manager.get s = m at h₁ hh ⊢
    simp only [Bool.not_true, Bool.false_eq_true, if_false, Prog.bind_eq, Prog.wp_bind]
    change Prog.wp ok bad _ _ (P.manager.set _ s)
    rw [hm]
    change Prog.wp ok bad _ _ (P.manager.set (m.withSet set) s)
    have hval := setHandle_val hN (m.withSet set) w
    rw [hh] at hval
    have hhandle : SparsePool.setHandle (whoOf (m.handleAt w)).toNat (m.handleAt w)
        ((pool P).pool.get (P.manager.set (m.withSet set) s)) =
        .ok ((), { (m.withSet set).sessionPool_ with
          handle_ := Function.update m.sessionPool_.handle_ w (m.handleAt w) }) := by
      change SparsePool.setHandle _ _ (P.manager.get (P.manager.set _ s)).sessionPool_ = _
      rw [P.manager.get_set]
      exact hval
    rw [Prog.wp_lens_update hhandle]
    change Prog.wp ok bad _ _ (P.manager.set _ (P.manager.set _ s))
    rw [set_set hP, P.manager.get_set]
    unfold SharedPoolPtr.construct
    rw [Prog.bind_eq, Prog.wp_bind, wp_addRef (w := w) hN (by
      rw [P.manager.get_set]
      exact hh.symm), P.manager.get_set, set_set hP]
    exact h₁
  · have hlocked' : SparsePool.popLocked x ((pool P).pool.get s) = _ := hlocked
    rw [Prog.wp_lens_update hlocked']
    change post .null (P.manager.set (P.manager.get s) s)
    rw [hP.set_get]
    exact hnone

/-- `MoveToState` of a current handle. -/
theorem wp_moveToState (hN : N < 2 ^ 32) {b : Blocks N SessionState.kCnt}
    (hrepr : SparseSet.Repr (P.manager.get s).sessionPool_.set b) (w : Fin N)
    (x : Fin SessionState.kCnt) {post : Bool → σ → Prop}
    (h : ∀ set, SparseSet.Leads set (Function.update b.block w x)
        (P.manager.get s).sessionPool_.set.gen →
      post true (P.manager.set ((P.manager.get s).withSet set) s)) :
    Prog.wp ok bad (SparsePool.moveToState (pool P) ((P.manager.get s).handleAt w) x) post s := by
  obtain ⟨set, hmove, hleads⟩ := SparseSet.moveToState_spec hN hrepr w x
  have hlocked : SparsePool.onSet
      (fun y => y.moveToState ((P.manager.get s).handleAt w) x) ((pool P).pool.get s) =
      .ok (true, ((P.manager.get s).withSet set).sessionPool_) := by
    change SparsePool.onSet _ (P.manager.get s).sessionPool_ = _
    rw [SparsePool.onSet, handleAt, hmove]
    rfl
  unfold SparsePool.moveToState
  rw [Prog.wp_lens_update hlocked]
  exact h set hleads

end Acquire

end SessionManager

end ServerStudy
