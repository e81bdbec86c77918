import Mathlib.Data.Multiset.Count
import ServerStudy.SessionManager.Pointers

/-!
# ServerStudy.SessionManager.Handles

The handle of a session is kept in four places: the generation table, the
session, its slot and the array of pointers.  Here the manager is called one
whole call at a time, by callers that keep the pointers they are given, copy
them and drop them; a last release calls back `PostAccept`, which creates
sessions in the middle of it.

* `Coherent` — how the places agree, and what the counts count;
* `handles_coherent` — they agree in every state reached, and `GetSession`
  returns the session that was asked for or none.
-/

namespace ServerStudy

namespace SessionManager

variable {N : Nat}

/-! ## calls -/

/-- What the manager's environment decides: how many sessions `PostAccept` asks
for. -/
inductive HandleCall : Type → Type where
  | turns : HandleCall Nat

/-- The manager's memory, and the pointers its callers hold. -/
structure Holding (N : Nat) where
  manager : SessionManager N
  held : List SharedPoolPtr

namespace Holding

/-- The manager within it. -/
def managerLens : Lens (Holding N) (SessionManager N) where
  get s := s.manager
  set m s := { s with manager := m }
  get_set _ _ := rfl

/-- The manager, with a given post-release function.  No socket is used. -/
def port (postRelease : Prog (Holding N) HandleCall Fault Unit) :
    ServerPort (Holding N) HandleCall N where
  manager := managerLens
  postRelease := postRelease
  wsaRecv _ _ := Prog.fault .emptyFunction
  wsaSend _ _ := Prog.fault .emptyFunction
  disconnectEx _ := Prog.fault .emptyFunction
  acceptEx _ := Prog.fault .emptyFunction
  setsockopt _ := Prog.fault .emptyFunction

/-- A caller keeps a pointer. -/
def keep (p : SharedPoolPtr) : Prog (Holding N) HandleCall Fault Unit :=
  Prog.modify fun s => { s with held := p :: s.held }

/-- The sessions that `PostAccept` creates, for at most `n` turns. -/
def recreate (P : ServerPort (Holding N) HandleCall N) : Nat → Prog (Holding N) HandleCall Fault Unit
  | 0 => return
  | n + 1 => do
    let p ← createSession P
    if !(← SharedPoolPtr.isValid (pool P) p) then
      return
    keep p
    recreate P n

/-- The manager as `PostAccept` calls it from within a release; it releases
nothing. -/
def innerPort (N : Nat) : ServerPort (Holding N) HandleCall N := port (Prog.fault .endless)

/-- The manager. -/
def outerPort (N : Nat) : ServerPort (Holding N) HandleCall N :=
  port do recreate (innerPort N) (← Prog.query .turns)

/-- The calls. -/
inductive Call where
  | createSession
  | connectSession (handle : UInt64)
  /-- `SetState` to `kDisconnecting` -/
  | setDisconnecting (handle : UInt64)
  | disconnectSession (handle : UInt64)
  | getSession (handle : UInt64)
  /-- copy the `i`th pointer -/
  | copy (i : Nat)
  /-- drop the `i`th pointer -/
  | drop (i : Nat)

/-- What `Session::Connect`, `Disconnect` and `Clear` have checked. -/
def Call.can (s : Holding N) : Call → Prop
  | .connectSession handle =>
    s.manager.sessionPool_.set.getState handle = some SessionState.kPending.toNat
  | .setDisconnecting handle =>
    s.manager.sessionPool_.set.getState handle = some SessionState.kPending.toNat ∨
      s.manager.sessionPool_.set.getState handle = some SessionState.kConnected.toNat
  | .disconnectSession handle =>
    s.manager.sessionPool_.set.getState handle = some SessionState.kDisconnecting.toNat
  | .copy i | .drop i => i < s.held.length
  | _ => True

/-- The code of a call. -/
def Call.prog : Call → Prog (Holding N) HandleCall Fault Unit
  | .createSession => do keep (← SessionManager.createSession (outerPort N))
  | .connectSession handle => do
    let _ ← SessionManager.connectSession (outerPort N) handle
  | .setDisconnecting handle => do
    let _ ← setState (outerPort N) handle .kDisconnecting
  | .disconnectSession handle => SessionManager.disconnectSession (outerPort N) handle
  | .getSession handle => do keep (← SessionManager.getSession (outerPort N) handle)
  | .copy i => do
    let p ← Prog.read fun s => s.held.getD i .null
    keep (← Prog.atomically (SharedPoolPtr.copy (pool (outerPort N)) p))
  | .drop i => do
    let p ← Prog.read fun s => s.held.getD i .null
    Prog.modify fun s => { s with held := s.held.eraseIdx i }
    destroy (outerPort N) p

/-- A call drops the last reference to a slot. -/
def Call.Last (s : Holding N) (w : Fin N) : Call → Prop
  | .drop i => s.held.getD i .null = ⟨true, s.manager.handleAt w⟩ ∧ s.manager.refCount w = 1
  | .disconnectSession handle => handle = s.manager.handleAt w ∧
      s.manager.sessionPtrs_ w = ⟨true, handle⟩ ∧ s.manager.refCount w = 1
  | _ => False

/-- Anything may be asked for. -/
def anything : Answers (Holding N) HandleCall := fun _ _ _ _ => True

open Classical in
/-- Reached by calls, no slot being released `2 ^ 32` times; `releases` counts. -/
inductive Reachable : Holding N → (Fin N → Nat) → Prop where
  | start : Reachable ⟨.new N, []⟩ fun _ => 0
  | step {s s' : Holding N} {releases : Fin N → Nat} {call : Call} :
      Reachable s releases → call.can s →
      (∀ w, call.Last s w → releases w + 1 < 2 ^ 32) →
      Prog.Exec anything call.prog s (.ok ((), s')) →
      Reachable s' fun w => releases w + if call.Last s w then 1 else 0

end Holding

/-! ## coherence -/

/-- A handle is the current one of its slot, or was. -/
def Known (m : SessionManager N) (h : UInt64) : Prop :=
  ∃ w : Fin N, (whoOf h).toNat = w ∧ (generationOf h).toNat ≤ (m.sessionPool_.set.gen w).toNat

/-- The four places agree, and the counts count the pointers: those in the
array, and `R` elsewhere. -/
structure Coherent (m : SessionManager N) (R : Multiset SharedPoolPtr) (releases : Fin N → Nat) :
    Prop where
  repr : ∃ b, SparseSet.Repr m.sessionPool_.set b
  gen : ∀ w, (m.sessionPool_.set.gen w).toNat = releases w
  counted : ∀ w, m.refCount w =
    (if m.sessionPtrs_ w = ⟨true, m.handleAt w⟩ then 1 else 0) + R.count ⟨true, m.handleAt w⟩
  known : ∀ p ∈ R, p.pool_ = true → m.Known p.handle_
  /-- an entry of the array is about its slot -/
  entry : ∀ w, (m.sessionPtrs_ w).pool_ = true →
    (whoOf (m.sessionPtrs_ w).handle_).toNat = w ∧ m.Known (m.sessionPtrs_ w).handle_
  idle : ∀ w, m.state w = 0 → m.refCount w = 0
  used : ∀ w, m.state w ≠ 0 → (m.session w).handle_ = m.handleAt w
  slotHandle : ∀ w, m.state w ≠ 0 → m.sessionPool_.handle_ w = m.handleAt w
  active : ∀ w, m.state w = 1 ∨ m.state w = 2 → m.sessionPtrs_ w = ⟨true, m.handleAt w⟩
  ovs : ∀ w i, (((m.session w).ov i).sessionPtr_).pool_ = false
  managed : ∀ w, m.state w ≠ 0 → (m.session w).sessionManager_ = true

/-! ## what the pointers' operations do to it -/

variable {m : SessionManager N} {R : Multiset SharedPoolPtr} {releases : Fin N → Nat} {w : Fin N}

theorem handleAt_inj (hN : N < 2 ^ 32) (m : SessionManager N) {v w : Fin N}
    (h : m.handleAt v = m.handleAt w) : v = w := SparseSet.handleAt_inj hN _ h

theorem isValid_iff (hN : N < 2 ^ 32) (m : SessionManager N) (h : UInt64) :
    m.sessionPool_.set.isValid h = true ↔ ∃ w, h = m.handleAt w := SparseSet.isValid_iff hN _ h

theorem generationOf_handleAt (m : SessionManager N) (w : Fin N) :
    generationOf (m.handleAt w) = m.sessionPool_.set.gen w := generationOf_handleOf _ _

theorem known_handleAt (hN : N < 2 ^ 32) (m : SessionManager N) (w : Fin N) :
    m.Known (m.handleAt w) :=
  ⟨w, toNat_whoOf hN m w, by rw [generationOf_handleAt]⟩

/-- A pointer is live or dead. -/
theorem live_or_dead (hN : N < 2 ^ 32) (m : SessionManager N) (p : SharedPoolPtr) :
    (∃ w, Live m w p) ∨ Dead m p := by
  by_cases hv : p.pool_ = true ∧ m.sessionPool_.set.isValid p.handle_ = true
  · obtain ⟨w, hw⟩ := (isValid_iff hN m _).mp hv.2
    refine .inl ⟨w, ?_⟩
    obtain ⟨pool_, handle_⟩ := p
    obtain ⟨rfl, -⟩ := hv
    simp only at hw
    rw [Live, hw]
  · exact .inr fun hp => by simpa [hp] using hv

/-- A dead pointer is none that is counted. -/
theorem Dead.ne (hN : N < 2 ^ 32) {p : SharedPoolPtr} (h : Dead m p) (w : Fin N) :
    p ≠ ⟨true, m.handleAt w⟩ := by
  rintro rfl
  have hv := h rfl
  rw [isValid_handleAt hN] at hv
  cases hv

/-- Being dead is a matter of the generations. -/
theorem Dead.of_gen (hN : N < 2 ^ 32) {m' : SessionManager N} {p : SharedPoolPtr} (h : Dead m p)
    (hgen : ∀ v, m'.sessionPool_.set.gen v = m.sessionPool_.set.gen v) : Dead m' p := fun hp => by
  by_contra hv
  obtain ⟨v, hv⟩ := (isValid_iff hN m' _).mp (by simpa using hv)
  rw [handleAt_eq (hgen v)] at hv
  have hinvalid := h hp
  rw [hv, isValid_handleAt hN] at hinvalid
  cases hinvalid

namespace Coherent

/-- A slot with a counted pointer is in use. -/
theorem state_ne (h : Coherent m R releases) (hpos : 0 < m.refCount w) : m.state w ≠ 0 := fun h0 => by
  have hzero := h.idle w h0
  omega

/-- The entry of the array is this slot's handle, or dead. -/
theorem entry_eq_or_dead (hN : N < 2 ^ 32) (h : Coherent m R releases) (w : Fin N) :
    Live m w (m.sessionPtrs_ w) ∨ Dead m (m.sessionPtrs_ w) := by
  rcases live_or_dead hN m (m.sessionPtrs_ w) with ⟨v, hv⟩ | hdead
  · have hpool : (m.sessionPtrs_ w).pool_ = true := by rw [hv]
    have hwho := (h.entry w hpool).1
    rw [show (m.sessionPtrs_ w).handle_ = m.handleAt v by rw [hv], toNat_whoOf hN] at hwho
    rw [Fin.ext hwho] at hv
    exact .inl hv
  · exact .inr hdead

theorem dead_ov (h : Coherent m R releases) (v : Fin N) (i : Ov) :
    Dead m (((m.session v).ov i).sessionPtr_) := dead_of_pool (h.ovs v i)

/-- A counted pointer is copied. -/
theorem retain (hN : N < 2 ^ 32) (h : Coherent m R releases) (hw : m.state w ≠ 0) :
    Coherent (m.retain w) (⟨true, m.handleAt w⟩ ::ₘ R) releases := by
  refine ⟨h.repr, h.gen, fun v => ?_, fun p hp hpool => ?_, h.entry, fun v hv => ?_, h.used,
    h.slotHandle, h.active, h.ovs, h.managed⟩
  · have hcount := h.counted v
    change Function.update m.sessionPool_.refCount_ w (m.refCount w + 1) v =
      (if m.sessionPtrs_ v = ⟨true, m.handleAt v⟩ then 1 else 0) +
        (⟨true, m.handleAt w⟩ ::ₘ R).count ⟨true, m.handleAt v⟩
    by_cases hvw : v = w
    · subst hvw
      rw [Function.update_self, Multiset.count_cons_self, hcount, Nat.add_assoc]
    · have hne : (⟨true, m.handleAt v⟩ : SharedPoolPtr) ≠ ⟨true, m.handleAt w⟩ := fun he =>
        hvw (handleAt_inj hN m (congrArg SharedPoolPtr.handle_ he))
      rw [Function.update_of_ne hvw, Multiset.count_cons_of_ne hne]
      exact hcount
  · rcases Multiset.mem_cons.mp hp with rfl | hp
    · exact known_handleAt hN m w
    · exact h.known p hp hpool
  · have hvw : v ≠ w := fun he => hw (he ▸ hv)
    exact (Function.update_of_ne hvw _ _).trans (h.idle v hv)

/-- A counted pointer is dropped, and there are others. -/
theorem discount (hN : N < 2 ^ 32) (h : Coherent m (⟨true, m.handleAt w⟩ ::ₘ R) releases) :
    Coherent (m.discount w) R releases := by
  have hpos : 0 < m.refCount w := by
    rw [h.counted, Multiset.count_cons_self]
    omega
  refine ⟨h.repr, h.gen, fun v => ?_, fun p hp => h.known p (Multiset.mem_cons_of_mem hp), h.entry,
    fun v hv => ?_, h.used, h.slotHandle, h.active, h.ovs, h.managed⟩
  · have hcount := h.counted v
    change Function.update m.sessionPool_.refCount_ w (m.refCount w - 1) v =
      (if m.sessionPtrs_ v = ⟨true, m.handleAt v⟩ then 1 else 0) + R.count ⟨true, m.handleAt v⟩
    by_cases hvw : v = w
    · subst hvw
      rw [Multiset.count_cons_self] at hcount
      rw [Function.update_self]
      omega
    · have hne : (⟨true, m.handleAt v⟩ : SharedPoolPtr) ≠ ⟨true, m.handleAt w⟩ := fun he =>
        hvw (handleAt_inj hN m (congrArg SharedPoolPtr.handle_ he))
      rw [Multiset.count_cons_of_ne hne] at hcount
      rw [Function.update_of_ne hvw]
      exact hcount
  · have hvw : v ≠ w := fun he => h.state_ne hpos (he ▸ hv)
    exact (Function.update_of_ne hvw _ _).trans (h.idle v hv)

/-- A dead pointer that was once current may be kept. -/
theorem keepDead (hN : N < 2 ^ 32) (h : Coherent m R releases) {p : SharedPoolPtr} (hp : Dead m p)
    (hknown : p.pool_ = true → m.Known p.handle_) : Coherent m (p ::ₘ R) releases := by
  refine ⟨h.repr, h.gen, fun v => ?_, fun q hq hpool => ?_, h.entry, h.idle, h.used, h.slotHandle,
    h.active, h.ovs, h.managed⟩
  · rw [Multiset.count_cons_of_ne (hp.ne hN v).symm, h.counted]
  · rcases Multiset.mem_cons.mp hq with rfl | hq
    · exact hknown hpool
    · exact h.known q hq hpool

/-- A dead pointer is dropped. -/
theorem dropDead (hN : N < 2 ^ 32) {p : SharedPoolPtr} (h : Coherent m (p ::ₘ R) releases)
    (hp : Dead m p) : Coherent m R releases := by
  refine ⟨h.repr, h.gen, fun v => ?_, fun q hq => h.known q (Multiset.mem_cons_of_mem hq), h.entry,
    h.idle, h.used, h.slotHandle, h.active, h.ovs, h.managed⟩
  rw [h.counted, Multiset.count_cons_of_ne (hp.ne hN v).symm]

end Coherent

/-- A slot is moved to a state; the others stay in theirs. -/
theorem state_moved {b : Blocks N SessionState.kCnt} {set : SparseSet N SessionState.kCnt}
    {x : Fin SessionState.kCnt} {gens : Fin N → UInt32}
    (hb : SparseSet.Repr m.sessionPool_.set b)
    (hset : SparseSet.Leads set (Function.update b.block w x) gens) :
    (m.withSet set).state w = x ∧ ∀ v, v ≠ w → (m.withSet set).state v = m.state v := by
  obtain ⟨⟨b', hb', hblock⟩, -⟩ := hset
  refine ⟨?_, fun v hv => ?_⟩
  · exact (hb'.state w).trans (by rw [hblock, Function.update_self])
  · exact (hb'.state v).trans (by rw [hblock, Function.update_of_ne hv, state, hb.state])

/-- What a last release does to the states and the generations. -/
structure Recycled (m m' : SessionManager N) (w : Fin N) : Prop where
  repr : ∃ b, SparseSet.Repr m'.sessionPool_.set b
  state_self : m'.state w = 0
  state_other : ∀ v, v ≠ w → m'.state v = m.state v
  gen_self : m'.sessionPool_.set.gen w = m.sessionPool_.set.gen w + 1
  gen_other : ∀ v, v ≠ w → m'.sessionPool_.set.gen v = m.sessionPool_.set.gen v

theorem recycled (hN : N < 2 ^ 32) (w : Fin N) (hrepr : ∃ b, SparseSet.Repr m.sessionPool_.set b) :
    Recycled m (m.recycle w) w := by
  obtain ⟨b, hb⟩ := hrepr
  obtain ⟨set, hleads, heq⟩ := recycle_eq hN w hb
  have hset : (m.recycle w).sessionPool_.set = set := by
    rw [heq]
    rfl
  obtain ⟨hself, hother⟩ := state_moved hb hleads
  obtain ⟨⟨b', hb', -⟩, hgen⟩ := hleads
  refine ⟨⟨b', hset ▸ hb'⟩, ?_, fun v hv => ?_, ?_, fun v hv => ?_⟩
  · rw [state, hset]
    exact hself
  · rw [state, hset]
    exact hother v hv
  · rw [hset, hgen, Function.update_self]
  · rw [hset, hgen, Function.update_of_ne hv]

namespace Coherent

/-- The last pointer to a slot is dropped; `R` are those left. -/
theorem recycle (hN : N < 2 ^ 32) {R' : Multiset SharedPoolPtr} (h : Coherent m R' releases)
    (hone : m.refCount w = 1) (hlt : releases w + 1 < 2 ^ 32) (hsub : ∀ p ∈ R, p ∈ R')
    (hother : ∀ v, v ≠ w → R.count ⟨true, m.handleAt v⟩ = R'.count ⟨true, m.handleAt v⟩) :
    Coherent (m.recycle w) R fun v => releases v + if v = w then 1 else 0 := by
  have hr := recycled hN w h.repr
  have hsucc : ((m.recycle w).sessionPool_.set.gen w).toNat = releases w + 1 := by
    rw [hr.gen_self, toNat_succ32 (by rw [h.gen]; exact hlt), h.gen]
  have hhandle : ∀ v, v ≠ w → (m.recycle w).handleAt v = m.handleAt v := fun v hv =>
    handleAt_eq (hr.gen_other v hv)
  obtain ⟨b, hb⟩ := h.repr
  obtain ⟨set, -, heq⟩ := recycle_eq hN w hb
  have hcount : (m.recycle w).sessionPool_.refCount_ =
      Function.update m.sessionPool_.refCount_ w (m.refCount w - 1) := by
    rw [heq]
    rfl
  have hptrs : (m.recycle w).sessionPtrs_ = m.sessionPtrs_ := by
    rw [heq]
    rfl
  have hsession : (m.recycle w).session =
      Function.update m.session w (finalized (m.session w)) := by
    rw [heq]
    rfl
  have hfield : (m.recycle w).sessionPool_.handle_ = m.sessionPool_.handle_ := by
    rw [heq]
    rfl
  have hknown : ∀ x, m.Known x → (m.recycle w).Known x := by
    rintro x ⟨v, hv, hle⟩
    refine ⟨v, hv, hle.trans ?_⟩
    by_cases hvw : v = w
    · rw [hvw, hsucc, h.gen]
      omega
    · rw [hr.gen_other v hvw]
  -- nobody knew the new handle
  have hnew : ∀ p : SharedPoolPtr, (p.pool_ = true → m.Known p.handle_) →
      p ≠ ⟨true, (m.recycle w).handleAt w⟩ := by
    rintro p hp rfl
    obtain ⟨v, hv, hle⟩ := hp rfl
    simp only at hv hle
    rw [toNat_whoOf hN] at hv
    rw [generationOf_handleAt, hsucc, ← Fin.ext hv, h.gen] at hle
    omega
  refine ⟨hr.repr, fun v => ?_, fun v => ?_, fun p hp hpool => hknown _ (h.known p (hsub p hp) hpool),
    fun v hv => ?_, fun v hv => ?_, fun v hv => ?_, fun v hv => ?_, fun v hv => ?_, fun v i => ?_,
    fun v hv => ?_⟩
  · by_cases hvw : v = w
    · rw [if_pos hvw, hvw, hsucc]
    · rw [if_neg hvw, hr.gen_other v hvw, h.gen, Nat.add_zero]
  · rw [refCount, hcount, hptrs]
    by_cases hvw : v = w
    · subst hvw
      have hentry := hnew (m.sessionPtrs_ v) fun hp => (h.entry v hp).2
      have hnone : R.count ⟨true, (m.recycle v).handleAt v⟩ = 0 :=
        Multiset.count_eq_zero.mpr fun hmem => hnew _ (h.known _ (hsub _ hmem)) rfl
      rw [Function.update_self, if_neg hentry, hnone, hone]
    · rw [Function.update_of_ne hvw, hhandle v hvw, hother v hvw]
      exact h.counted v
  · rw [hptrs] at hv ⊢
    exact ⟨(h.entry v hv).1, hknown _ (h.entry v hv).2⟩
  · rw [refCount, hcount]
    by_cases hvw : v = w
    · rw [hvw, Function.update_self, hone]
    · rw [Function.update_of_ne hvw]
      exact h.idle v (by rw [← hr.state_other v hvw]; exact hv)
  · have hvw : v ≠ w := fun he => hv (by rw [he, hr.state_self])
    rw [hsession, Function.update_of_ne hvw, hhandle v hvw]
    exact h.used v (by rw [← hr.state_other v hvw]; exact hv)
  · have hvw : v ≠ w := fun he => hv (by rw [he, hr.state_self])
    rw [hfield, hhandle v hvw]
    exact h.slotHandle v (by rw [← hr.state_other v hvw]; exact hv)
  · have hvw : v ≠ w := fun he => by
      rw [he, hr.state_self] at hv
      omega
    rw [hptrs, hhandle v hvw]
    exact h.active v (by rw [← hr.state_other v hvw]; exact hv)
  · rw [hsession]
    by_cases hvw : v = w
    · subst hvw
      rw [Function.update_self]
      have hov := h.ovs v i
      cases i <;> exact hov
    · rw [Function.update_of_ne hvw]
      exact h.ovs v i
  · have hvw : v ≠ w := fun he => hv (by rw [he, hr.state_self])
    rw [hsession, Function.update_of_ne hvw]
    exact h.managed v (by rw [← hr.state_other v hvw]; exact hv)

/-- The constructor. -/
theorem start (N : Nat) : Coherent (.new N) 0 fun _ => 0 where
  repr := ⟨_, SparseSet.repr_new (by decide)⟩
  gen _ := rfl
  counted _ := rfl
  known _ hp := absurd hp (Multiset.notMem_zero _)
  entry _ h := absurd h Bool.false_ne_true
  idle _ _ := rfl
  used _ h := absurd rfl h
  slotHandle _ h := absurd rfl h
  active w h := by
    have h0 : (SessionManager.new N).state w = 0 := rfl
    omega
  ovs w i := by cases i <;> rfl
  managed _ h := absurd rfl h

/-- A slot in use moves between the states in use. -/
theorem moved (h : Coherent m R releases) {b : Blocks N SessionState.kCnt}
    {set : SparseSet N SessionState.kCnt} {x : Fin SessionState.kCnt}
    (hb : SparseSet.Repr m.sessionPool_.set b)
    (hset : SparseSet.Leads set (Function.update b.block w x) m.sessionPool_.set.gen)
    (hw : m.state w ≠ 0) (hx : (x : Nat) ≠ 0)
    (hactive : (x : Nat) = 1 ∨ (x : Nat) = 2 → m.sessionPtrs_ w = ⟨true, m.handleAt w⟩) :
    Coherent (m.withSet set) R releases := by
  obtain ⟨hself, hother⟩ := state_moved hb hset
  obtain ⟨⟨b', hb', -⟩, hgen⟩ := hset
  have hgen' : ∀ v, (m.withSet set).sessionPool_.set.gen v = m.sessionPool_.set.gen v := fun v =>
    congrFun hgen v
  have hhandle : ∀ v, (m.withSet set).handleAt v = m.handleAt v := fun v => handleAt_eq (hgen' v)
  have hknown : ∀ y, m.Known y → (m.withSet set).Known y := by
    rintro y ⟨v, hv, hle⟩
    exact ⟨v, hv, by rw [hgen']; exact hle⟩
  have hbusy : ∀ v, (m.withSet set).state v ≠ 0 → m.state v ≠ 0 := fun v hv => by
    by_cases hvw : v = w
    · rw [hvw]
      exact hw
    · rwa [← hother v hvw]
  refine ⟨⟨b', hb'⟩, fun v => ?_, fun v => ?_, fun p hp hpool => hknown _ (h.known p hp hpool),
    fun v hv => ⟨(h.entry v hv).1, hknown _ (h.entry v hv).2⟩, fun v hv => ?_, fun v hv => ?_,
    fun v hv => ?_, fun v hv => ?_, h.ovs, fun v hv => h.managed v (hbusy v hv)⟩
  · rw [hgen']
    exact h.gen v
  · rw [hhandle]
    exact h.counted v
  · have hvw : v ≠ w := fun he => hx (by rw [← hself, ← he]; exact hv)
    exact h.idle v (by rw [← hother v hvw]; exact hv)
  · rw [hhandle]
    exact h.used v (hbusy v hv)
  · rw [hhandle]
    exact h.slotHandle v (hbusy v hv)
  · rw [hhandle]
    by_cases hvw : v = w
    · rw [hvw] at hv ⊢
      exact hactive (by rwa [hself] at hv)
    · exact h.active v (by rwa [← hother v hvw])

/-- The array drops its pointer to a slot that is disconnecting, and there are
others. -/
theorem emptied (h : Coherent m R releases) (hptr : m.sessionPtrs_ w = ⟨true, m.handleAt w⟩)
    (hw : m.state w = 3) : Coherent ((m.discount w).setPtr w .null) R releases := by
  have hcounted := h.counted w
  rw [if_pos hptr] at hcounted
  refine ⟨h.repr, h.gen, fun v => ?_, h.known, fun v hv => ?_, fun v hv => ?_, h.used, h.slotHandle,
    fun v hv => ?_, h.ovs, h.managed⟩
  · change Function.update m.sessionPool_.refCount_ w (m.refCount w - 1) v =
      (if Function.update m.sessionPtrs_ w .null v = ⟨true, m.handleAt v⟩ then 1 else 0) +
        R.count ⟨true, m.handleAt v⟩
    by_cases hvw : v = w
    · subst hvw
      rw [Function.update_self, Function.update_self, if_neg (by simp [SharedPoolPtr.null])]
      omega
    · rw [Function.update_of_ne hvw, Function.update_of_ne hvw]
      exact h.counted v
  · change (Function.update m.sessionPtrs_ w .null v).pool_ = true at hv
    change (whoOf (Function.update m.sessionPtrs_ w .null v).handle_).toNat = v ∧
      m.Known (Function.update m.sessionPtrs_ w .null v).handle_
    by_cases hvw : v = w
    · rw [hvw, Function.update_self] at hv
      cases hv
    · rw [Function.update_of_ne hvw] at hv ⊢
      exact h.entry v hv
  · have hvw : v ≠ w := fun he => by
      change m.state v = 0 at hv
      rw [he] at hv
      omega
    exact (Function.update_of_ne hvw _ _).trans (h.idle v hv)
  · change m.state v = 1 ∨ m.state v = 2 at hv
    have hvw : v ≠ w := fun he => by
      rw [he] at hv
      omega
    exact (Function.update_of_ne hvw _ _).trans (h.active v hv)

/-- An idle slot's entry is dead. -/
theorem dead_entry (hN : N < 2 ^ 32) (h : Coherent m R releases) (hw : m.state w = 0) :
    Dead m (m.sessionPtrs_ w) := by
  rcases h.entry_eq_or_dead hN w with hlive | hdead
  · have hcounted := h.counted w
    rw [if_pos (show m.sessionPtrs_ w = _ from hlive), h.idle w hw] at hcounted
    omega
  · exact hdead

end Coherent

/-! ## creating -/

/-- `CreateSession` of a slot, when `Acquire` leaves `set`. -/
def created (m : SessionManager N) (w : Fin N) (set : SparseSet N SessionState.kCnt) :
    SessionManager N :=
  (((m.acquired w set).setSession w
    { m.session w with sessionManager_ := true, handle_ := m.handleAt w }).setPtr w
      ⟨true, m.handleAt w⟩).retain w

/-- `CreateSession`: no slot is idle, or it takes one that is. -/
theorem wp_createSession {σ : Type} {Q : Type → Type} {P : ServerPort σ Q N} {ok : Answers σ Q}
    {bad : Fault → Prop} {s : σ} (hN : N < 2 ^ 32) (hP : P.manager.Lawful)
    {b : Blocks N SessionState.kCnt} (hrepr : SparseSet.Repr (P.manager.get s).sessionPool_.set b)
    (hdead : ∀ w, (P.manager.get s).state w = 0 →
      Dead (P.manager.get s) ((P.manager.get s).sessionPtrs_ w))
    {post : SharedPoolPtr → σ → Prop} (hnone : post .null s)
    (hsome : ∀ w set, (P.manager.get s).state w = 0 →
      SparseSet.Leads set
        (Function.update b.block w ⟨SessionState.kPending.toNat, by decide⟩)
        (P.manager.get s).sessionPool_.set.gen →
      post ⟨true, (P.manager.get s).handleAt w⟩
        (P.manager.set ((P.manager.get s).created w set) s)) :
    Prog.wp ok bad (createSession P) post s := by
  unfold createSession
  rw [Prog.bind_eq, Prog.wp_bind]
  refine wp_acquire hN hP hrepr ⟨SessionState.kPending.toNat, by decide⟩ ?_ fun w set hw hset => ?_
  · rw [Prog.bind_eq, Prog.wp_bind, wp_ptrIsValid_dead (dead_null _)]
    exact hnone
  · have hpost := hsome w set hw hset
    have hd := hdead w hw
    generalize hm : P.manager.get s = m at hpost hset hd
    have hhandle : (m.acquired w set).handleAt w = m.handleAt w := handleAt_eq (congrFun hset.2 w)
    -- the pointer leads to the slot, whatever is written to the session
    have hlive : ∀ x, Live (P.manager.get (P.manager.set ((m.acquired w set).setSession w x) s)) w
        ⟨true, m.handleAt w⟩ := fun x => by
      rw [P.manager.get_set, Live]
      exact congrArg _ hhandle.symm
    have hlive₀ : Live (P.manager.get (P.manager.set (m.acquired w set) s)) w
        ⟨true, m.handleAt w⟩ := by
      rw [P.manager.get_set, Live, hhandle]
    rw [Prog.bind_eq, Prog.wp_bind, wp_ptrIsValid_live hN hlive₀]
    simp only [Bool.not_true, Bool.false_eq_true, if_false, Prog.bind_eq, Prog.wp_bind]
    rw [wp_deref_live hN hlive₀, wp_session_modify, P.manager.get_set, set_set hP,
      wp_deref_live hN (hlive _), wp_session_modify, P.manager.get_set, set_set hP,
      session_setSession, setSession_setSession]
    generalize hx : Session.mk .. = x
    have hx' : x = { m.session w with sessionManager_ := true, handle_ := m.handleAt w } := hx.symm
    have hentry : Dead (P.manager.get (P.manager.set ((m.acquired w set).setSession w x) s))
        ((ptrLens P w).get (P.manager.set ((m.acquired w set).setSession w x) s)) := by
      rw [ptrLens_get, P.manager.get_set]
      exact hd.of_gen hN fun v => congrFun hset.2 v
    rw [wp_slot hN m, wp_assign_dead hentry, wp_copyOf, Lens.get_set', ptrLens_set,
      P.manager.get_set, set_set hP, wp_copy_live (w := w) hN (by
      rw [P.manager.get_set, Live]
      exact congrArg _ hhandle.symm), P.manager.get_set, set_set hP, hx']
    exact hpost

namespace Coherent

/-- A session is created in an idle slot, and its pointer kept. -/
theorem create (hN : N < 2 ^ 32) (h : Coherent m R releases) {b : Blocks N SessionState.kCnt}
    {set : SparseSet N SessionState.kCnt} (hb : SparseSet.Repr m.sessionPool_.set b)
    (hset : SparseSet.Leads set
      (Function.update b.block w ⟨SessionState.kPending.toNat, by decide⟩) m.sessionPool_.set.gen)
    (hw : m.state w = 0) :
    Coherent (m.created w set) (⟨true, m.handleAt w⟩ ::ₘ R) releases := by
  obtain ⟨hself, hother⟩ := state_moved hb hset
  obtain ⟨⟨b', hb', -⟩, hgen⟩ := hset
  have hgen' : ∀ v, (m.withSet set).sessionPool_.set.gen v = m.sessionPool_.set.gen v := fun v =>
    congrFun hgen v
  have hhandle : ∀ v, (m.withSet set).handleAt v = m.handleAt v := fun v => handleAt_eq (hgen' v)
  have hone : (m.withSet set).state w = 1 := hself
  have hzero := h.idle w hw
  have hcounted := h.counted w
  rw [hzero] at hcounted
  -- without the pointer that is returned
  generalize hm₁ : ((m.acquired w set).setSession w
    { m.session w with sessionManager_ := true, handle_ := m.handleAt w }).setPtr w
      ⟨true, m.handleAt w⟩ = m₁
  have hset₁ : m₁.sessionPool_.set = set := by
    rw [← hm₁]
    rfl
  have hstate : ∀ v, m₁.state v = (m.withSet set).state v := fun v => by
    rw [← hm₁]
    rfl
  have hhandle₁ : ∀ v, m₁.handleAt v = m.handleAt v := fun v => by
    rw [← hhandle v, ← hm₁]
    rfl
  have hcount : m₁.sessionPool_.refCount_ =
      Function.update m.sessionPool_.refCount_ w (m.refCount w + 1) := by
    rw [← hm₁]
    rfl
  have hptrs : m₁.sessionPtrs_ = Function.update m.sessionPtrs_ w ⟨true, m.handleAt w⟩ := by
    rw [← hm₁]
    rfl
  have hsession : m₁.session = Function.update m.session w
      { m.session w with sessionManager_ := true, handle_ := m.handleAt w } := by
    rw [← hm₁]
    rfl
  have hfield : m₁.sessionPool_.handle_ =
      Function.update m.sessionPool_.handle_ w (m.handleAt w) := by
    rw [← hm₁]
    rfl
  have hknown : ∀ y, m.Known y → m₁.Known y := by
    rintro y ⟨v, hv, hle⟩
    exact ⟨v, hv, by rw [hset₁, hgen]; exact hle⟩
  have h₁ : Coherent m₁ R releases := by
    refine ⟨⟨b', hset₁ ▸ hb'⟩, fun v => ?_, fun v => ?_,
      fun p hp hpool => hknown _ (h.known p hp hpool), fun v hv => ?_, fun v hv => ?_, fun v hv => ?_,
      fun v hv => ?_, fun v hv => ?_, fun v i => ?_, fun v hv => ?_⟩
    · rw [hset₁, hgen]
      exact h.gen v
    · rw [refCount, hcount, hptrs, hhandle₁]
      by_cases hvw : v = w
      · subst hvw
        rw [Function.update_self, Function.update_self, if_pos rfl, hzero]
        omega
      · rw [Function.update_of_ne hvw, Function.update_of_ne hvw]
        exact h.counted v
    · rw [hptrs] at hv ⊢
      by_cases hvw : v = w
      · subst hvw
        rw [Function.update_self]
        exact ⟨toNat_whoOf hN m v, hknown _ (known_handleAt hN m v)⟩
      · rw [Function.update_of_ne hvw] at hv ⊢
        exact ⟨(h.entry v hv).1, hknown _ (h.entry v hv).2⟩
    · rw [hstate] at hv
      have hvw : v ≠ w := fun he => by
        rw [he, hone] at hv
        cases hv
      rw [refCount, hcount, Function.update_of_ne hvw]
      exact h.idle v (by rwa [← hother v hvw])
    · rw [hsession, hhandle₁]
      by_cases hvw : v = w
      · rw [hvw, Function.update_self]
      · rw [Function.update_of_ne hvw]
        exact h.used v (by rwa [← hother v hvw, ← hstate])
    · rw [hfield, hhandle₁]
      by_cases hvw : v = w
      · rw [hvw, Function.update_self]
      · rw [Function.update_of_ne hvw]
        exact h.slotHandle v (by rwa [← hother v hvw, ← hstate])
    · rw [hptrs, hhandle₁]
      by_cases hvw : v = w
      · rw [hvw, Function.update_self]
      · rw [Function.update_of_ne hvw]
        exact h.active v (by rwa [← hother v hvw, ← hstate])
    · rw [hsession]
      by_cases hvw : v = w
      · subst hvw
        rw [Function.update_self]
        have hov := h.ovs v i
        cases i <;> exact hov
      · rw [Function.update_of_ne hvw]
        exact h.ovs v i
    · rw [hsession]
      by_cases hvw : v = w
      · rw [hvw, Function.update_self]
      · rw [Function.update_of_ne hvw]
        exact h.managed v (by rwa [← hother v hvw, ← hstate])
  have hretain := h₁.retain (w := w) hN (by rw [hstate, hone]; exact Nat.one_ne_zero)
  rw [hhandle₁] at hretain
  rw [created, hm₁]
  exact hretain

end Coherent

/-! ## the calls keep it -/

namespace Holding

variable {s : Holding N}

theorem managerLens_lawful (N : Nat) : (managerLens (N := N)).Lawful := ⟨fun _ => rfl, fun _ _ _ => rfl⟩

/-- The manager is coherent, with the pointers held. -/
def Coheres (s : Holding N) (releases : Fin N → Nat) : Prop :=
  Coherent s.manager s.held releases

/-- The handle of a slot in a state, or of none. -/
theorem of_getState (hN : N < 2 ^ 32) {h : UInt64} {x : Nat}
    (hx : m.sessionPool_.set.getState h = some x) : ∃ w, h = m.handleAt w ∧ m.state w = x := by
  unfold SparseSet.getState at hx
  split_ifs at hx with hv
  · obtain ⟨w, hw⟩ := (isValid_iff hN m h).mp hv
    rw [hw, toNat_whoOf hN, FixedArray.get?_val] at hx
    exact ⟨w, hw, Option.some.inj hx⟩

/-- `CreateSession`, and its pointer kept. -/
theorem wp_create (hN : N < 2 ^ 32) {r : Prog (Holding N) HandleCall Fault Unit}
    (h : Coheres s releases) {post : SharedPoolPtr → Holding N → Prop} (hnone : post .null s)
    (hsome : ∀ w m', Live m' w ⟨true, m'.handleAt w⟩ →
      Coheres ⟨m', ⟨true, m'.handleAt w⟩ :: s.held⟩ releases →
      post ⟨true, m'.handleAt w⟩ ⟨m', s.held⟩) :
    Prog.wp anything (fun _ => False) (SessionManager.createSession (port r)) post s := by
  obtain ⟨b, hb⟩ := Coherent.repr h
  have hdead : ∀ w, s.manager.state w = 0 → Dead s.manager (s.manager.sessionPtrs_ w) := fun w hw =>
    Coherent.dead_entry hN h hw
  refine wp_createSession (P := port r) hN (managerLens_lawful N) hb hdead hnone
    fun w set hw hset => ?_
  have hhandle : (s.manager.created w set).handleAt w = s.manager.handleAt w :=
    handleAt_eq (congrFun hset.2 w)
  have hpost := hsome w (s.manager.created w set) rfl (by
    rw [hhandle]
    exact Coherent.create hN h hb hset hw)
  rw [hhandle] at hpost
  exact hpost

/-- The sessions that `PostAccept` creates. -/
theorem wp_recreate (hN : N < 2 ^ 32) (turns : Nat) (h : Coheres s releases)
    {post : Unit → Holding N → Prop} (hpost : ∀ s', Coheres s' releases → post () s') :
    Prog.wp anything (fun _ => False) (recreate (innerPort N) turns) post s := by
  induction turns generalizing s with
  | zero => exact hpost s h
  | succ turns ih =>
      unfold recreate
      rw [Prog.bind_eq, Prog.wp_bind]
      refine wp_create hN h ?_ fun w m' hlive hkept => ?_
      · rw [Prog.bind_eq, Prog.wp_bind, wp_ptrIsValid_dead (dead_null _)]
        exact hpost s h
      · have hget : Live ((innerPort N).manager.get ⟨m', s.held⟩) w ⟨true, m'.handleAt w⟩ := hlive
        rw [Prog.bind_eq, Prog.wp_bind, wp_ptrIsValid_live hN hget]
        exact ih hkept

/-- What a last release leaves behind. -/
theorem wp_postRelease (hN : N < 2 ^ 32) (h : Coheres s releases)
    {post : Unit → Holding N → Prop} (hpost : ∀ s', Coheres s' releases → post () s') :
    Prog.wp anything (fun _ => False) (outerPort N).postRelease post s := by
  have hprog : (outerPort N).postRelease = (Prog.query .turns).bind (recreate (innerPort N)) := rfl
  rw [hprog, Prog.wp_bind, Prog.wp_query]
  exact fun turns _ => wp_recreate hN turns h hpost

open Classical in
/-- A call that drops no last reference. -/
theorem Coheres.same (call : Call) (hlast : ∀ w, ¬ call.Last s w) :
    (fun w => releases w + if call.Last s w then 1 else 0) = releases := by
  funext w
  rw [if_neg (hlast w), Nat.add_zero]

/-- A pointer is looked up, copied and kept. -/
theorem wp_copyKept (hN : N < 2 ^ 32) (h : Coheres s releases) {p : SharedPoolPtr}
    (hlive : ∀ w, Live s.manager w p → s.manager.state w ≠ 0)
    (hknown : p.pool_ = true → s.manager.Known p.handle_) :
    Prog.wp anything (fun _ => False) (SharedPoolPtr.copy (pool (outerPort N)) p)
      (fun q s' => Coheres ⟨s'.manager, q :: s'.held⟩ releases ∧ s'.held = s.held) s := by
  rcases live_or_dead hN s.manager p with ⟨w, hw⟩ | hdead
  · have hget : Live ((outerPort N).manager.get s) w p := hw
    rw [wp_copy_live hN hget]
    refine ⟨?_, rfl⟩
    rw [Live] at hw
    rw [hw]
    exact Coherent.retain hN h (hlive w hw)
  · have hget : Dead ((outerPort N).manager.get s) p := hdead
    rw [wp_copy_dead hget]
    exact ⟨Coherent.keepDead hN h hdead hknown, rfl⟩

/-- `GetSession`, and what it returns. -/
theorem wp_getSession (hN : N < 2 ^ 32) (h : Coheres s releases) (handle : UInt64) :
    Prog.wp anything (fun _ => False) (SessionManager.getSession (outerPort N) handle)
      (fun p s' => Coheres ⟨s'.manager, p :: s'.held⟩ releases ∧
        (Dead s'.manager p ∨ ∃ w, p = ⟨true, handle⟩ ∧ handle = s'.manager.handleAt w ∧
          (s'.manager.session w).handle_ = handle)) s := by
  unfold SessionManager.getSession
  rw [Prog.bind_eq, Prog.wp_bind, wp_isValid]
  change Prog.wp _ _ (if (!s.manager.sessionPool_.set.isValid handle) = true then _ else _) _ s
  cases hv : s.manager.sessionPool_.set.isValid handle with
  | false => exact ⟨Coherent.keepDead hN h (dead_null _) (fun hp => absurd hp Bool.false_ne_true),
      .inl (dead_null _)⟩
  | true =>
      obtain ⟨w, rfl⟩ := (isValid_iff hN s.manager handle).mp hv
      simp only [Bool.not_true, Bool.false_eq_true, if_false, Prog.bind_eq, Prog.wp_bind]
      refine (wp_slot hN s.manager).mpr ?_
      rw [wp_copyOf]
      change Prog.wp _ _ (SharedPoolPtr.copy _ (s.manager.sessionPtrs_ w)) _ s
      rcases Coherent.entry_eq_or_dead hN h w with hlive | hdead
      · have hget : Live ((outerPort N).manager.get s) w (s.manager.sessionPtrs_ w) := hlive
        have hcounted := Coherent.counted h w
        rw [if_pos (show s.manager.sessionPtrs_ w = _ from hlive)] at hcounted
        have hstate := Coherent.state_ne h (w := w) (by omega)
        rw [wp_copy_live hN hget, hlive]
        refine ⟨Coherent.retain hN h hstate, .inr ⟨w, rfl, rfl, ?_⟩⟩
        exact Coherent.used h w hstate
      · have hget : Dead ((outerPort N).manager.get s) (s.manager.sessionPtrs_ w) := hdead
        rw [wp_copy_dead hget]
        exact ⟨Coherent.keepDead hN h hdead fun hp => (Coherent.entry h w hp).2, .inl hdead⟩

/-- `MoveToState` of a slot in use. -/
theorem wp_move (hN : N < 2 ^ 32) (h : Coheres s releases) {w : Fin N} (x : Fin SessionState.kCnt)
    (hw : s.manager.state w ≠ 0) (hx : (x : Nat) ≠ 0)
    (hactive : (x : Nat) = 1 ∨ (x : Nat) = 2 →
      s.manager.sessionPtrs_ w = ⟨true, s.manager.handleAt w⟩) :
    Prog.wp anything (fun _ => False)
      (SparsePool.moveToState (pool (outerPort N)) (s.manager.handleAt w) x)
      (fun _ s' => Coheres s' releases) s := by
  obtain ⟨b, hb⟩ := Coherent.repr h
  exact wp_moveToState (P := outerPort N) hN hb w x fun set hset =>
    Coherent.moved h hb hset hw hx hactive

open Classical in
/-- `DisconnectSession`. -/
theorem wp_disconnect (hN : N < 2 ^ 32) (h : Coheres s releases) {handle : UInt64}
    (hcan : (Call.disconnectSession handle).can s)
    (hlt : ∀ w, (Call.disconnectSession handle).Last s w → releases w + 1 < 2 ^ 32) :
    Prog.wp anything (fun _ => False) (SessionManager.disconnectSession (outerPort N) handle)
      (fun _ s' => Coheres s' fun w =>
        releases w + if (Call.disconnectSession handle).Last s w then 1 else 0) s := by
  obtain ⟨w, rfl, hstate⟩ := of_getState hN hcan
  have hvalid := isValid_handleAt hN s.manager w
  generalize hpost : (fun (_ : Unit) (s' : Holding N) => Coheres s' fun v =>
    releases v + if (Call.disconnectSession (s.manager.handleAt w)).Last s v then 1 else 0) = post
  unfold SessionManager.disconnectSession
  rw [Prog.bind_eq, Prog.wp_bind, wp_isValid]
  change Prog.wp _ _ (if (!s.manager.sessionPool_.set.isValid (s.manager.handleAt w)) = true
    then _ else _) _ s
  rw [hvalid]
  simp only [Bool.not_true, Bool.false_eq_true, if_false, Prog.bind_eq, Prog.wp_bind]
  refine (wp_slot hN s.manager).mpr ?_
  rcases Coherent.entry_eq_or_dead hN h w with hlive | hdead
  · have hget : Live ((outerPort N).manager.get s) w ((ptrLens (outerPort N) w).get s) := hlive
    by_cases hone : s.manager.refCount w = 1
    · -- the last reference
      rw [wp_reset_last hN (managerLens_lawful N) hget hone (Coherent.repr h)
        fun i _ => Coherent.dead_ov h w i]
      have hlast : ∀ v, (Call.disconnectSession (s.manager.handleAt w)).Last s v ↔ v = w := by
        refine fun v => ⟨fun hv => (handleAt_inj hN s.manager hv.1).symm, fun hv => ?_⟩
        rw [hv]
        exact ⟨rfl, hlive, hone⟩
      have hnext := Coherent.recycle (R := (s.held : Multiset SharedPoolPtr)) hN h hone
        (hlt w ((hlast w).mpr rfl)) (fun _ hp => hp) fun _ _ => rfl
      refine wp_postRelease (s := ⟨s.manager.recycle w, s.held⟩) hN hnext fun s' hs' => ?_
      rw [← hpost]
      simpa only [hlast] using hs'
    · have hcounted := Coherent.counted h w
      rw [if_pos (show s.manager.sessionPtrs_ w = _ from hlive)] at hcounted
      rw [wp_reset_many hN hget (show 1 < s.manager.refCount w by omega), ← hpost]
      change Coherent _ _ _
      rw [Coheres.same (.disconnectSession _) fun v hv => hone (by
        rw [← handleAt_inj hN s.manager hv.1] at hv
        exact hv.2.2)]
      exact Coherent.emptied h hlive hstate
  · have hget : Dead ((outerPort N).manager.get s) ((ptrLens (outerPort N) w).get s) := hdead
    rw [wp_reset_dead hget, ← hpost]
    change Coherent _ _ _
    rw [Coheres.same (.disconnectSession _) fun v hv => hdead.ne hN v (by
      have hvw := handleAt_inj hN s.manager hv.1
      subst hvw
      exact hv.2.1)]
    exact h

open Classical in
/-- Dropping a pointer. -/
theorem wp_drop (hN : N < 2 ^ 32) (h : Coheres s releases) {i : Nat} (hi : i < s.held.length)
    (hlt : ∀ w, (Call.drop i).Last s w → releases w + 1 < 2 ^ 32) :
    Prog.wp anything (fun _ => False)
      (destroy (outerPort N) (s.held.getD i .null))
      (fun _ s' => Coheres s' fun w => releases w + if (Call.drop i).Last s w then 1 else 0)
      ⟨s.manager, s.held.eraseIdx i⟩ := by
  have hget : s.held.getD i .null = s.held[i] := by simp [hi]
  have hheld : (s.held : Multiset SharedPoolPtr) =
      s.held.getD i .null ::ₘ (s.held.eraseIdx i : Multiset SharedPoolPtr) := by
    rw [hget]
    exact (Multiset.coe_eq_coe.mpr (List.getElem_cons_eraseIdx_perm hi)).symm
  have h' : Coherent s.manager (s.held.getD i .null ::ₘ
      (s.held.eraseIdx i : Multiset SharedPoolPtr)) releases := hheld ▸ h
  generalize hpost : (fun (_ : Unit) (s' : Holding N) => Coheres s' fun v =>
    releases v + if (Call.drop i).Last s v then 1 else 0) = post
  have hlast_iff : ∀ v, (Call.drop i).Last s v ↔
    s.held.getD i .null = ⟨true, s.manager.handleAt v⟩ ∧ s.manager.refCount v = 1 := fun _ => Iff.rfl
  generalize s.held.getD i .null = p at h' hlast_iff
  generalize s.held.eraseIdx i = rest at h'
  rcases live_or_dead hN s.manager p with ⟨w, hw⟩ | hdead
  · have hp : p = ⟨true, s.manager.handleAt w⟩ := hw
    have hlive : Live ((outerPort N).manager.get ⟨s.manager, rest⟩) w p := hw
    have hother : ∀ v, v ≠ w → (rest : Multiset SharedPoolPtr).count ⟨true, s.manager.handleAt v⟩ =
        (p ::ₘ (rest : Multiset SharedPoolPtr)).count ⟨true, s.manager.handleAt v⟩ := fun v hv => by
      rw [Multiset.count_cons_of_ne]
      rw [hp]
      exact fun he => hv (handleAt_inj hN s.manager (congrArg SharedPoolPtr.handle_ he))
    by_cases hone : s.manager.refCount w = 1
    · rw [wp_destroy_last hN (managerLens_lawful N) hlive hone (Coherent.repr h)
        fun j _ => Coherent.dead_ov h w j]
      have hlast : ∀ v, (Call.drop i).Last s v ↔ v = w := by
        refine fun v => ⟨fun hv => ?_, fun hv => ?_⟩
        · have hpv := ((hlast_iff v).mp hv).1
          rw [hp] at hpv
          exact (handleAt_inj hN s.manager (congrArg SharedPoolPtr.handle_ hpv)).symm
        · rw [hv, hlast_iff]
          exact ⟨hp, hone⟩
      have hnext := Coherent.recycle (R := (rest : Multiset SharedPoolPtr)) hN h' hone
        (hlt w ((hlast w).mpr rfl)) (fun _ hq => Multiset.mem_cons_of_mem hq) hother
      refine wp_postRelease (s := ⟨s.manager.recycle w, rest⟩) hN hnext fun s' hs' => ?_
      rw [← hpost]
      simpa only [hlast] using hs'
    · have hcounted := Coherent.counted h' w
      rw [hp, Multiset.count_cons_self] at hcounted
      rw [wp_destroy_many hN hlive (show 1 < s.manager.refCount w by omega), ← hpost]
      change Coherent _ _ _
      rw [Coheres.same (.drop i) fun v hv => hone (by
        have hpv := ((hlast_iff v).mp hv).1
        rw [hp] at hpv
        rw [handleAt_inj hN s.manager (congrArg SharedPoolPtr.handle_ hpv)]
        exact hv.2)]
      rw [hp] at h'
      exact Coherent.discount hN h'
  · have hdead' : Dead ((outerPort N).manager.get ⟨s.manager, rest⟩) p := hdead
    rw [wp_destroy_dead hdead', ← hpost]
    change Coherent _ _ _
    rw [Coheres.same (.drop i) fun v hv => hdead.ne hN v ((hlast_iff v).mp hv).1]
    exact Coherent.dropDead hN h' hdead

open Classical in
/-- A call keeps the coherence, and none of its accesses faults. -/
theorem run_call (hN : N < 2 ^ 32) {call : Call} (h : Coheres s releases) (hcan : call.can s)
    (hlt : ∀ w, call.Last s w → releases w + 1 < 2 ^ 32) :
    Prog.wp anything (fun _ => False) call.prog
      (fun _ s' => Coheres s' fun w => releases w + if call.Last s w then 1 else 0) s := by
  cases call with
  | createSession =>
      rw [Coheres.same .createSession fun _ hl => hl]
      simp only [Call.prog, Prog.bind_eq, Prog.wp_bind]
      refine wp_create hN h ?_ fun w m' hlive hkept => hkept
      exact Coherent.keepDead hN h (dead_null _) fun hp => absurd hp Bool.false_ne_true
  | connectSession handle =>
      rw [Coheres.same (.connectSession _) fun _ hl => hl]
      obtain ⟨w, rfl, hstate⟩ := of_getState hN hcan
      simp only [Call.prog, Prog.bind_eq, Prog.wp_bind]
      refine wp_move hN h ⟨SessionState.kConnected.toNat, by decide⟩ ?_ (by decide) fun _ => ?_
      · rw [hstate]
        decide
      · exact Coherent.active h w (.inl hstate)
  | setDisconnecting handle =>
      rw [Coheres.same (.setDisconnecting _) fun _ hl => hl]
      have hstate : ∃ w, handle = s.manager.handleAt w ∧ s.manager.state w ≠ 0 := by
        rcases hcan with hcan | hcan
        · obtain ⟨w, hw, hstate⟩ := of_getState hN hcan
          exact ⟨w, hw, by rw [hstate]; decide⟩
        · obtain ⟨w, hw, hstate⟩ := of_getState hN hcan
          exact ⟨w, hw, by rw [hstate]; decide⟩
      obtain ⟨w, rfl, hstate⟩ := hstate
      simp only [Call.prog, Prog.bind_eq, Prog.wp_bind]
      exact wp_move hN h ⟨SessionState.kDisconnecting.toNat, by decide⟩ hstate (by decide) fun hx =>
        absurd hx (by decide)
  | disconnectSession handle => exact wp_disconnect hN h hcan hlt
  | getSession handle =>
      rw [Coheres.same (.getSession _) fun _ hl => hl]
      simp only [Call.prog, Prog.bind_eq, Prog.wp_bind]
      exact Prog.wp_mono (fun p s' hp => hp.1) (wp_getSession hN h handle)
  | copy i =>
      rw [Coheres.same (.copy _) fun _ hl => hl]
      have hi : i < s.held.length := hcan
      have hmem : s.held.getD i .null ∈ s.held := by
        have hget : s.held.getD i .null = s.held[i] := by simp [hi]
        rw [hget]
        exact List.getElem_mem hi
      simp only [Call.prog, Prog.bind_eq, Prog.wp_bind, Prog.wp_read, Prog.wp_atomically]
      refine Prog.wp_mono (fun p s' hp => hp.1) (wp_copyKept hN h (fun w hw => ?_) fun hp =>
        Coherent.known h _ hmem hp)
      have hcounted := Coherent.counted h w
      rw [Live] at hw
      rw [hw] at hmem
      have hpos := Multiset.one_le_count_iff_mem.mpr (Multiset.mem_coe.mpr hmem)
      exact Coherent.state_ne h (by omega)
  | drop i => exact wp_drop hN h hcan hlt

/-- Every state reached is coherent. -/
theorem Reachable.coheres (hN : N < 2 ^ 32) (hs : Reachable s releases) : Coheres s releases := by
  induction hs with
  | start => exact Coherent.start N
  | step _ hcan hlt hexec ih => exact hexec.post (run_call hN ih hcan hlt)

end Holding

/-- In every state reached, the entry of a slot that is pending or connected is
valid and carries the slot's handle, as its session does; and `GetSession`
returns an invalid pointer, or one with the handle it was asked for, to the
session with this handle. -/
theorem handles_coherent (hN : N < 2 ^ 32) {s : Holding N} {releases : Fin N → Nat}
    (hs : Holding.Reachable s releases) :
    (∀ w, s.manager.state w = SessionState.kPending.toNat ∨
        s.manager.state w = SessionState.kConnected.toNat →
      s.manager.sessionPtrs_ w = ⟨true, s.manager.handleAt w⟩ ∧
      s.manager.sessionPool_.set.isValid (s.manager.handleAt w) = true ∧
      (s.manager.session w).handle_ = s.manager.handleAt w) ∧
    ∀ handle r, Prog.Exec Holding.anything (getSession (Holding.outerPort N) handle) s r →
      ∃ p s', r = .ok (p, s') ∧
        (Dead s'.manager p ∨ ∃ w, p = ⟨true, handle⟩ ∧ handle = s'.manager.handleAt w ∧
          (s'.manager.session w).handle_ = handle) := by
  have h := hs.coheres hN
  refine ⟨fun w hw => ⟨Coherent.active h w hw, isValid_handleAt hN _ w, Coherent.used h w ?_⟩,
    fun handle r hr => ?_⟩
  · rcases hw with hw | hw <;> rw [hw] <;> decide
  · have hmeets := hr.meets (Holding.wp_getSession hN h handle)
    cases r with
    | error e => exact absurd hmeets id
    | ok r => exact ⟨r.1, r.2, rfl, hmeets.2⟩

/-- `PostAccept` asks for no session. -/
def Holding.noTurns (β : Type) (_ : Holding N) : HandleCall β → β
  | .turns => 0

namespace Holding

instance (s : Holding N) : (call : Call) → Decidable (call.can s)
  | .connectSession _ | .disconnectSession _ => inferInstanceAs (Decidable (_ = _))
  | .setDisconnecting _ => inferInstanceAs (Decidable (_ ∨ _))
  | .copy _ | .drop _ => inferInstanceAs (Decidable (_ < _))
  | .createSession | .getSession _ => inferInstanceAs (Decidable True)

/-- Make the calls of a list, `PostAccept` asking for no session. -/
def play : Holding N → List Call → Option (Holding N)
  | s, [] => some s
  | s, call :: calls =>
      if call.can s then
        match Prog.run noTurns call.prog s with
        | .ok (_, s') => play s' calls
        | .error _ => none
      else none

/-- What they lead to is reachable. -/
theorem Reachable.play {calls : List Call} {s s' : Holding N} {releases : Fin N → Nat}
    (hs : Reachable s releases) (hlt : ∀ w, releases w + calls.length < 2 ^ 32)
    (h : s.play calls = some s') : ∃ releases', Reachable s' releases' := by
  classical
  induction calls generalizing s releases with
  | nil =>
      obtain rfl := Option.some.inj h
      exact ⟨releases, hs⟩
  | cons call calls ih =>
      rw [Holding.play] at h
      split_ifs at h with hcan
      have hexec : Prog.Exec anything call.prog s (Prog.run noTurns call.prog s) :=
        Prog.exec_run (fun _ _ _ => trivial) _ _
      split at h
      · rename_i s₁ hrun
        rw [hrun] at hexec
        simp only [List.length_cons] at hlt
        refine ih (hs.step hcan (fun w _ => ?_) hexec) (fun w => ?_) h
        · have hw := hlt w
          omega
        · have hw := hlt w
          split_ifs <;> omega
      · cases h

end Holding

/-- A session is created in the only slot. -/
theorem Holding.exists_created : ∃ (s : Holding 1) (releases : Fin 1 → Nat),
    Holding.Reachable s releases ∧ s.manager.state 0 = SessionState.kPending.toNat := by
  have hrun : ∃ s : Holding 1,
      Prog.run Holding.noTurns (Holding.Call.prog .createSession) ⟨.new 1, []⟩ = .ok ((), s) ∧
        s.manager.state 0 = SessionState.kPending.toNat := ⟨_, rfl, rfl⟩
  obtain ⟨s, hs, hstate⟩ := hrun
  have hexec : Prog.Exec Holding.anything (Holding.Call.prog .createSession) ⟨.new 1, []⟩
      (.ok ((), s)) := hs ▸ Prog.exec_run (fun _ _ _ => trivial) _ _
  have hcan : Holding.Call.createSession.can (⟨.new 1, []⟩ : Holding 1) := trivial
  exact ⟨s, _, Holding.Reachable.start.step hcan (fun _ hl => absurd hl id) hexec, hstate⟩

/-- Two sessions are created; the first is disconnected, released and created again, and the
second connected. -/
theorem handles_coherent_again :
    ∃ (s : Holding 2) (releases : Fin 2 → Nat), Holding.Reachable s releases ∧
      s.manager.handleAt 0 = 4294967296 ∧
      s.manager.sessionPtrs_ 0 = ⟨true, 4294967296⟩ ∧ (s.manager.session 0).handle_ = 4294967296 ∧
      s.manager.sessionPtrs_ 1 = ⟨true, s.manager.handleAt 1⟩ ∧
      (s.manager.session 1).handle_ = s.manager.handleAt 1 := by
  have hplay : ((Holding.play (⟨.new 2, []⟩ : Holding 2) [.createSession, .createSession,
      .setDisconnecting 0, .disconnectSession 0, .drop 1, .createSession, .connectSession 1]).map
        fun s => (s.manager.state 0, s.manager.state 1, s.manager.handleAt 0)) =
      some (SessionState.kPending.toNat, SessionState.kConnected.toNat, 4294967296) := by
    decide +kernel
  obtain ⟨s, hs, hvals⟩ := Option.map_eq_some_iff.mp hplay
  simp only [Prod.mk.injEq] at hvals
  obtain ⟨h0, h1, hhandle⟩ := hvals
  obtain ⟨releases, hreach⟩ := Holding.Reachable.start.play (fun w => by simp) hs
  have h := (handles_coherent (by decide) hreach).1
  have hfirst := h 0 (.inl h0)
  have hsecond := h 1 (.inr h1)
  rw [hhandle] at hfirst
  exact ⟨s, releases, hreach, hhandle, hfirst.1, hfirst.2.2, hsecond.1, hsecond.2.2⟩

end SessionManager

end ServerStudy
