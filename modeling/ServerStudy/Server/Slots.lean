import Mathlib.Data.Multiset.Filter
import ServerStudy.Server.Ledger
import ServerStudy.SessionManager.Handles

/-!
# ServerStudy.Server.Slots

The world slot by slot: everything an account is drawn up from, and how each
operation on the manager's memory changes it.

* `Kept` — every slot's books agree, the stages being those of all threads;
* `Touch` — one slot changes, the others do not;
* `Kept.touch` — so one slot's books have to be looked at.
-/

namespace ServerStudy

namespace Server

open SessionManager

variable {N : Nat}

/-! ## slots -/

/-- What there is of a slot. -/
structure Slot where
  handle : UInt64
  state : Nat
  refs : Nat
  entry : SharedPoolPtr
  session : Session
  posted : SocketOp → Nat
  closed : Bool
  accepted : Bool
  disconnects : Nat
  listening : Bool
  dequeued : Bool

/-- One for a pointer to the session with a handle. -/
def live (handle : UInt64) (p : SharedPoolPtr) : Nat := (decide (p = ⟨true, handle⟩)).toNat

/-- One for a pointer to something else. -/
def stray (handle : UInt64) (p : SharedPoolPtr) : Nat :=
  (decide (p.pool_ = true ∧ p ≠ ⟨true, handle⟩)).toNat

/-- A pointer to the session counts once. -/
@[simp] theorem live_self (handle : UInt64) : live handle ⟨true, handle⟩ = 1 := by simp [live]

/-- And it is not a stray one. -/
@[simp] theorem stray_self (handle : UInt64) : stray handle ⟨true, handle⟩ = 0 := by simp [stray]

/-- Nor is the null pointer. -/
theorem stray_of_pool {handle : UInt64} {p : SharedPoolPtr} (h : p.pool_ = false) :
    stray handle p = 0 := by
  simp [stray, h]

/-- The null pointer does not count. -/
theorem live_of_pool {handle : UInt64} {p : SharedPoolPtr} (h : p.pool_ = false) :
    live handle p = 0 := by
  obtain ⟨pool_, handle_⟩ := p
  simp [live, show pool_ = false from h]

/-- What counts is a pointer to the session. -/
theorem eq_of_live {handle : UInt64} {p : SharedPoolPtr} (h : live handle p = 1) :
    p = ⟨true, handle⟩ := by
  simpa [live] using h

/-- A pointer to nothing. -/
theorem pool_of_zero {handle : UInt64} {p : SharedPoolPtr} (h : live handle p = 0)
    (h' : stray handle p = 0) : p.pool_ = false := by
  simp only [live, stray, Bool.toNat_eq_zero, decide_eq_false_iff_not] at h h'
  simpa [h] using h'

/-- Whether an `OverlappedEx` has been used. -/
def dirty (ov : OverlappedEx) : Bool := !decide (ov.readPos_ = 0 ∧ ov.writePos_ = 0)

/-- The account of a slot. -/
def Slot.account (x : Slot) : Account where
  idle := (decide (x.state = 0)).toNat
  pending := (decide (x.state = 1)).toNat
  connected := (decide (x.state = 2)).toNat
  closing := (decide (x.state = 3)).toNat
  refs := x.refs
  entry := live x.handle x.entry
  read := live x.handle x.session.readOv_.sessionPtr_
  write := live x.handle x.session.writeOv_.sessionPtr_
  disc := live x.handle x.session.disconnectOv_.sessionPtr_
  stray := stray x.handle x.entry + stray x.handle x.session.readOv_.sessionPtr_ +
    stray x.handle x.session.writeOv_.sessionPtr_ + stray x.handle x.session.disconnectOv_.sessionPtr_
  accept := x.posted .accept
  recv := x.posted .recv
  send := x.posted .send
  disconnect := x.posted .disconnect
  closed := x.closed.toNat
  accepted := x.accepted.toNat
  disconnects := x.disconnects
  sending := x.session.isSending_.toNat
  dirtyRead := (dirty x.session.readOv_).toNat
  dirtyWrite := (dirty x.session.writeOv_).toNat
  ioAccept := (decide (x.session.readOv_.ioType_ = .kAccept)).toNat
  ioRecv := (decide (x.session.readOv_.ioType_ = .kRecv)).toNat
  ioSend := (decide (x.session.writeOv_.ioType_ = .kSend)).toNat
  ioDisconnect := (decide (x.session.disconnectOv_.ioType_ = .kDisconnect)).toNat
  named := (decide (x.session.handle_ = x.handle)).toNat
  unnamed := (decide (x.session.handle_ = kInvalidHandle)).toNat
  managed := x.session.sessionManager_.toNat
  listener := x.session.listener_.toNat
  listening := x.listening.toNat
  dequeued := x.dequeued.toNat

/-- The pointers in one `OverlappedEx`. -/
def Account.cell (v : Account) : Ov → Nat
  | .read => v.read
  | .write => v.write
  | .disconnect => v.disc

def Account.setCell (v : Account) (n : Nat) : Ov → Account
  | .read => { v with read := n }
  | .write => { v with write := n }
  | .disconnect => { v with disc := n }

/-- Emptying a cell that is empty changes nothing. -/
theorem Account.setCell_zero (v : Account) {i : Ov} (h : v.cell i = 0) :
    ({ v with refs := v.refs - v.cell i } : Account).setCell 0 i = v := by
  cases v
  cases i <;>
    (simp only [cell] at h
     subst h
     rfl)

namespace Slot

variable {x : Slot} {i : Ov} {p : SharedPoolPtr}

/-- What an account says of a cell is whether the pointer in it counts. -/
theorem cell_account (x : Slot) (i : Ov) :
    x.account.cell i = live x.handle (x.session.ov i).sessionPtr_ := by
  cases i <;> rfl

/-- Without stray pointers, a pointer that is not to the slot is null. -/
theorem null_entry (h : x.account.stray = 0) (he : x.account.entry = 0) : x.entry.pool_ = false := by
  simp only [account, Nat.add_eq_zero_iff] at h
  exact pool_of_zero he h.1.1.1

/-- The same for the pointers in the operations. -/
theorem null_cell (h : x.account.stray = 0) (hi : x.account.cell i = 0) :
    (x.session.ov i).sessionPtr_.pool_ = false := by
  simp only [account, Nat.add_eq_zero_iff] at h
  rw [cell_account] at hi
  cases i with
  | read => exact pool_of_zero hi h.1.1.2
  | write => exact pool_of_zero hi h.1.2
  | disconnect => exact pool_of_zero hi h.2

/-- A counted entry points to the session. -/
theorem live_entry (he : x.account.entry = 1) : x.entry = ⟨true, x.handle⟩ := eq_of_live he

/-- So does a counted pointer of an operation. -/
theorem live_cell (hi : x.account.cell i = 1) :
    (x.session.ov i).sessionPtr_ = ⟨true, x.handle⟩ := eq_of_live (x.cell_account i ▸ hi)

/-- Another pointer in the array. -/
theorem account_setEntry (h : x.account.stray = 0) (hp : stray x.handle p = 0) :
    Slot.account { x with entry := p } = { x.account with entry := live x.handle p } := by
  have hsum : stray x.handle p + stray x.handle x.session.readOv_.sessionPtr_ +
      stray x.handle x.session.writeOv_.sessionPtr_ +
      stray x.handle x.session.disconnectOv_.sessionPtr_ = x.account.stray := by
    simp only [account] at h ⊢
    omega
  change ({ x.account with entry := live x.handle p, stray := _ } : Account) = _
  rw [hsum]

/-- Another pointer in an `OverlappedEx`. -/
theorem account_setCell (h : x.account.stray = 0) (hp : stray x.handle p = 0) :
    Slot.account { x with
      session := x.session.setOv { x.session.ov i with sessionPtr_ := p } i } =
      x.account.setCell (live x.handle p) i := by
  have hsum : (Slot.account { x with
      session := x.session.setOv { x.session.ov i with sessionPtr_ := p } i }).stray =
      (x.account.setCell (live x.handle p) i).stray := by
    simp only [account, Nat.add_eq_zero_iff] at h
    cases i <;> simp only [account, Account.setCell, Session.setOv, Session.ov, h, hp]
  cases i <;> (apply Account.ext <;> first | exact hsum | rfl)

end Slot

/-- A slot of the world. -/
def World.slot (s : World N) (w : Fin N) : Slot where
  handle := s.manager.handleAt w
  state := s.manager.state w
  refs := s.manager.refCount w
  entry := s.manager.sessionPtrs_ w
  session := s.manager.session w
  posted := s.posted w
  closed := s.closed w
  accepted := s.accepted w
  disconnects := s.calls w
  listening := decide (s.listening w = s.manager.handleAt w)
  dequeued := decide (s.dequeued w = s.manager.handleAt w)

/-! ## the books -/

/-- What a thread is about to do with a slot, under the handle it knows. -/
structure Token (N : Nat) where
  stage : Stage
  slot : Fin N
  handle : UInt64
  deriving DecidableEq

/-- What is about to be done with a slot. -/
def stagesAt (R : Multiset (Token N)) (w : Fin N) : Multiset Stage :=
  (R.filter (·.slot = w)).map (·.stage)

/-- These stages, at one slot. -/
def tokensAt (w : Fin N) (h : UInt64) (ks : Multiset Stage) : Multiset (Token N) :=
  ks.map fun k => ⟨k, w, h⟩

/-- The stages of several threads. -/
@[simp] theorem stagesAt_add (R R' : Multiset (Token N)) (w : Fin N) :
    stagesAt (R + R') w = stagesAt R w + stagesAt R' w := by
  simp [stagesAt]

/-- No tokens, no stages. -/
@[simp] theorem stagesAt_zero (w : Fin N) : stagesAt 0 w = 0 := rfl

/-- The tokens at one slot have its stages. -/
@[simp] theorem stagesAt_tokensAt (w : Fin N) (h : UInt64) (ks : Multiset Stage) :
    stagesAt (tokensAt w h ks) w = ks := by
  simp [stagesAt, tokensAt, Multiset.filter_map]

/-- They have none of another slot's. -/
theorem stagesAt_tokensAt_ne {v w : Fin N} (hv : v ≠ w) (h : UInt64) (ks : Multiset Stage) :
    stagesAt (tokensAt w h ks) v = 0 := by
  simp [stagesAt, tokensAt, Multiset.filter_map, Ne.symm hv]

/-- A token at the slot is one more stage. -/
theorem stagesAt_cons_self (k : Stage) (w : Fin N) (h : UInt64) (R : Multiset (Token N)) :
    stagesAt (⟨k, w, h⟩ ::ₘ R) w = k ::ₘ stagesAt R w := by
  simp [stagesAt]

/-- A token elsewhere is none. -/
theorem stagesAt_cons_ne {v w : Fin N} (hv : v ≠ w) (k : Stage) (h : UInt64)
    (R : Multiset (Token N)) : stagesAt (⟨k, w, h⟩ ::ₘ R) v = stagesAt R v := by
  simp [stagesAt, Ne.symm hv]

/-- One more stage is one more token. -/
@[simp] theorem tokensAt_cons (w : Fin N) (h : UInt64) (k : Stage) (ks : Multiset Stage) :
    tokensAt w h (k ::ₘ ks) = ⟨k, w, h⟩ ::ₘ tokensAt w h ks := Multiset.map_cons _ _ _

/-- A token is a stage of its slot. -/
theorem mem_stagesAt {R : Multiset (Token N)} {t : Token N} (ht : t ∈ R) :
    t.stage ∈ stagesAt R t.slot :=
  Multiset.mem_map_of_mem _ (Multiset.mem_filter.mpr ⟨ht, rfl⟩)

/-- A session nothing was received on or queued for, and its operations. -/
structure Unused (x : Session) (posted : SocketOp → Nat) : Prop where
  readOv_ : dirty x.readOv_ = false
  writeOv_ : dirty x.writeOv_ = false
  isSending_ : x.isSending_ = false
  recv : posted .recv = 0
  send : posted .send = 0
  disconnect : posted .disconnect = 0

/-- A session that carries the slot's handle, the manager and the listener, for which
`SetListener` was called under that handle. -/
structure SetUp (x : Session) (handle listening : UInt64) : Prop where
  sessionManager_ : x.sessionManager_ = true
  handle_ : x.handle_ = handle
  listener_ : x.listener_ = true
  listening : listening = handle

/-- The books of all slots agree; the tokens are those of all threads. -/
structure Kept (m : Terms) (s : World N) (R : Multiset (Token N)) : Prop where
  repr : ∃ b, SparseSet.Repr s.manager.sessionPool_.set b
  current : ∀ t ∈ R, t.stage ≠ .seen → t.handle = s.manager.handleAt t.slot
  balanced : ∀ w, Balanced m (s.slot w).account (stagesAt R w)
  created : m.whole = true → ∀ x ∈ s.created, Unused x.1 x.2
  handled : m.patient = true → ∀ x ∈ s.handled, SetUp x.1 x.2.1 x.2.2

/-! ## one slot changes -/

/-- What may become of a slot's state in one step. -/
inductive Evolves : Slot → Slot → Prop where
  | stay {x x' : Slot} : x'.state = x.state → x'.handle = x.handle → Evolves x x'
  | acquire {x x' : Slot} : x.state = 0 → x'.state = 1 → x'.handle = x.handle → Evolves x x'
  | connect {x x' : Slot} : x.state = 1 → x'.state = 2 → x'.handle = x.handle → Evolves x x'
  | disconnect {x x' : Slot} : x.state = 1 ∨ x.state = 2 → x'.state = 3 → x'.handle = x.handle →
      Evolves x x'
  | release {x x' : Slot} : x.state = 3 → x'.state = 0 → x'.handle ≠ x.handle → Evolves x x'

/-- One slot has become `x`, the others are as they were. -/
structure Touch (w : Fin N) (s s' : World N) (x : Slot) : Prop where
  repr : ∃ b, SparseSet.Repr s'.manager.sessionPool_.set b
  slot : s'.slot w = x
  other : ∀ v, v ≠ w → s'.slot v = s.slot v
  history : s'.created = s.created ∧ s'.handled = s.handled

variable {m : Terms} {w : Fin N} {s s' s'' : World N} {x y : Slot} {h : UInt64}
  {ks ks' : Multiset Stage} {F : Multiset (Token N)}

/-- Two changes of one slot. -/
theorem Touch.trans (h₁ : Touch w s s' x) (h₂ : Touch w s' s'' y) : Touch w s s'' y :=
  ⟨h₂.repr, h₂.slot, fun v hv => (h₂.other v hv).trans (h₁.other v hv),
    h₂.history.1.trans h₁.history.1, h₂.history.2.trans h₁.history.2⟩

/-- No change at all. -/
theorem Touch.refl (w : Fin N) (hrepr : ∃ b, SparseSet.Repr s.manager.sessionPool_.set b) :
    Touch w s s (s.slot w) := ⟨hrepr, rfl, fun _ _ => rfl, rfl, rfl⟩

/-- The books of the slot that changes have to agree again. -/
theorem Kept.touch (hk : Kept m s (tokensAt w h ks + F)) (ht : Touch w s s' x)
    (hh : s.manager.handleAt w = h) (hx : x.handle = h)
    (hbal : Balanced m x.account (ks' + stagesAt F w)) :
    Kept m s' (tokensAt w h ks' + F) := by
  have hhandle : ∀ v, s'.manager.handleAt v = s.manager.handleAt v := fun v => by
    by_cases hv : v = w
    · have hw := congrArg Slot.handle ht.slot
      rw [hx, ← hh] at hw
      rw [hv]
      exact hw
    · exact congrArg Slot.handle (ht.other v hv)
  refine ⟨ht.repr, fun t hmem hne => ?_, fun v => ?_,
    fun hwhole => ht.history.1 ▸ hk.created hwhole, fun hp => ht.history.2 ▸ hk.handled hp⟩
  · rw [hhandle]
    rcases Multiset.mem_add.mp hmem with hmem | hmem
    · obtain ⟨k, -, rfl⟩ := Multiset.mem_map.mp hmem
      exact hh.symm
    · exact hk.current t (Multiset.mem_add.mpr (.inr hmem)) hne
  · by_cases hv : v = w
    · rw [hv, ht.slot, stagesAt_add, stagesAt_tokensAt]
      exact hbal
    · have hbalv := hk.balanced v
      rw [stagesAt_add, stagesAt_tokensAt_ne hv] at hbalv ⊢
      rw [ht.other v hv]
      exact hbalv

/-- The books of one slot. -/
theorem Kept.at (hk : Kept m s (tokensAt w h ks + F)) :
    Balanced m (s.slot w).account (ks + stagesAt F w) := by
  simpa using hk.balanced w

/-- A token keeps its slot's handle. -/
theorem Kept.handle (hk : Kept m s (tokensAt w h ks + F)) {k : Stage} (hmem : k ∈ ks)
    (hne : k ≠ .seen) : s.manager.handleAt w = h :=
  (hk.current ⟨k, w, h⟩ (Multiset.mem_add.mpr (.inl (Multiset.mem_map_of_mem _ hmem))) hne).symm

/-! ## the operations -/

/-- The world with another manager. -/
def World.setManager (s : World N) (m : SessionManager N) : World N := { s with manager := m }

section Operations

variable (hrepr : ∃ b, SparseSet.Repr s.manager.sessionPool_.set b)
include hrepr

/-- `refCount_` of a slot is written. -/
theorem touch_recount (n : Nat) :
    Touch w s (s.setManager (s.manager.recount w n)) { s.slot w with refs := n } :=
  ⟨hrepr, congrArg (fun n => ({ s.slot w with refs := n } : Slot)) (Function.update_self _ _ _),
    fun v hv => congrArg (fun n => ({ s.slot v with refs := n } : Slot))
      (Function.update_of_ne hv _ _), rfl, rfl⟩

/-- Its session is written. -/
theorem touch_setSession (y : Session) :
    Touch w s (s.setManager (s.manager.setSession w y)) { s.slot w with session := y } :=
  ⟨hrepr, congrArg (fun y => ({ s.slot w with session := y } : Slot)) (Function.update_self _ _ _),
    fun v hv => congrArg (fun y => ({ s.slot v with session := y } : Slot))
      (Function.update_of_ne hv _ _), rfl, rfl⟩

/-- Its pointer in the array is written. -/
theorem touch_setPtr (p : SharedPoolPtr) :
    Touch w s (s.setManager (s.manager.setPtr w p)) { s.slot w with entry := p } :=
  ⟨hrepr, congrArg (fun p => ({ s.slot w with entry := p } : Slot)) (Function.update_self _ _ _),
    fun v hv => congrArg (fun p => ({ s.slot v with entry := p } : Slot))
      (Function.update_of_ne hv _ _), rfl, rfl⟩

/-- The pool's copy of its handle is written. -/
theorem touch_setHandle (handles : FixedArray N UInt64) :
    Touch w s (s.setManager { s.manager with sessionPool_.handle_ := handles }) (s.slot w) :=
  ⟨hrepr, rfl, fun _ _ => rfl, rfl, rfl⟩

/-- Its outstanding operations change. -/
theorem touch_setPosted (op : SocketOp) (n : Nat) :
    Touch w s (s.setPosted w op n)
      { s.slot w with posted := Function.update (s.posted w) op n } :=
  ⟨hrepr, congrArg (fun f => ({ s.slot w with posted := f } : Slot)) (Function.update_self _ _ _),
    fun v hv => congrArg (fun f => ({ s.slot v with posted := f } : Slot))
      (Function.update_of_ne hv _ _), rfl, rfl⟩

/-- Its socket is closed, or open again. -/
theorem touch_setClosed (closed : Bool) :
    Touch w s { s with closed := Function.update s.closed w closed }
      { s.slot w with closed := closed } :=
  ⟨hrepr, congrArg (fun b => ({ s.slot w with closed := b } : Slot)) (Function.update_self _ _ _),
    fun v hv => congrArg (fun b => ({ s.slot v with closed := b } : Slot))
      (Function.update_of_ne hv _ _), rfl, rfl⟩

/-- It is accepted. -/
theorem touch_accepted :
    Touch w s { s with accepted := Function.update s.accepted w true }
      { s.slot w with accepted := true } :=
  ⟨hrepr, congrArg (fun b => ({ s.slot w with accepted := b } : Slot)) (Function.update_self _ _ _),
    fun v hv => congrArg (fun b => ({ s.slot v with accepted := b } : Slot))
      (Function.update_of_ne hv _ _), rfl, rfl⟩

/-- `AcceptEx` is posted on it, and it is open from then on. -/
theorem touch_listen :
    Touch w s (s.listen w) { s.slot w with
      posted := Function.update (s.posted w) .accept (s.posted w .accept + 1)
      closed := false
      accepted := true } := by
  have hposted := touch_setPosted (w := w) hrepr .accept (s.posted w .accept + 1)
  have hopen := touch_setClosed (w := w) hposted.repr false
  rw [hposted.slot] at hopen
  have haccepted := touch_accepted (w := w) hopen.repr
  rw [hopen.slot] at haccepted
  exact (hposted.trans hopen).trans haccepted

/-- `DisconnectEx` is called on it. -/
theorem touch_countDisconnect :
    Touch w s (s.countDisconnect w) { s.slot w with disconnects := s.calls w + 1 } := by
  refine ⟨hrepr, congrArg (fun n => ({ s.slot w with disconnects := n } : Slot)) ?_,
    fun v hv => congrArg (fun n => ({ s.slot v with disconnects := n } : Slot)) ?_, rfl, rfl⟩
  · simp [World.calls, World.countDisconnect]
  · simp [World.calls, World.countDisconnect, hv]

/-- `SetListener` is called on its session. -/
theorem touch_hear : Touch w s (s.hear w) { s.slot w with listening := true } := by
  refine ⟨hrepr, congrArg (fun b => ({ s.slot w with listening := b } : Slot)) ?_,
    fun v hv => congrArg (fun b => ({ s.slot v with listening := b } : Slot)) ?_, rfl, rfl⟩
  · simp [World.hear]
  · simp [World.hear, hv]

/-- A completion of its accept is dequeued. -/
theorem touch_dequeued :
    Touch w s { s with dequeued := Function.update s.dequeued w (s.manager.handleAt w) }
      { s.slot w with dequeued := true } := by
  refine ⟨hrepr, congrArg (fun b => ({ s.slot w with dequeued := b } : Slot)) ?_,
    fun v hv => congrArg (fun b => ({ s.slot v with dequeued := b } : Slot)) ?_, rfl, rfl⟩
  · simp
  · simp [hv]

omit hrepr

/-- A slot is moved to a state. -/
theorem touch_withSet {b : Blocks N SessionState.kCnt} {set : SparseSet N SessionState.kCnt}
    {i : Fin SessionState.kCnt} (hb : SparseSet.Repr s.manager.sessionPool_.set b)
    (hset : SparseSet.Leads set (Function.update b.block w i) s.manager.sessionPool_.set.gen) :
    Touch w s (s.setManager (s.manager.withSet set)) { s.slot w with state := i } := by
  obtain ⟨hself, hother⟩ := state_moved hb hset
  obtain ⟨⟨b', hb', -⟩, hgen⟩ := hset
  have hhandle : ∀ v, (s.manager.withSet set).handleAt v = s.manager.handleAt v := fun v =>
    handleAt_eq (congrFun hgen v)
  refine ⟨⟨b', hb'⟩, ?_, fun v hv => ?_, rfl, rfl⟩
  · simp only [World.slot, World.setManager, World.calls, hself, hhandle]
    rfl
  · simp only [World.slot, World.setManager, World.calls, hother v hv, hhandle]
    rfl

/-- A slot is pushed: it is idle, under a handle that nothing was noted of. -/
theorem touch_push {b : Blocks N SessionState.kCnt} {set : SparseSet N SessionState.kCnt}
    (hb : SparseSet.Repr s.manager.sessionPool_.set b)
    (hset : SparseSet.Leads set (Function.update b.block w ⟨0, by decide⟩)
      (Function.update s.manager.sessionPool_.set.gen w (s.manager.sessionPool_.set.gen w + 1)))
    (hnoted : (s.disconnects w).1 = s.manager.handleAt w ∧ s.listening w = s.manager.handleAt w ∧
      s.dequeued w = s.manager.handleAt w) :
    (s.manager.withSet set).handleAt w ≠ s.manager.handleAt w ∧
      Touch w s (s.setManager (s.manager.withSet set)) { s.slot w with
        handle := (s.manager.withSet set).handleAt w
        state := 0
        disconnects := 0
        listening := false
        dequeued := false } := by
  obtain ⟨hself, hother⟩ := state_moved hb hset
  obtain ⟨⟨b', hb', -⟩, hgen⟩ := hset
  have hhandle : ∀ v, v ≠ w → (s.manager.withSet set).handleAt v = s.manager.handleAt v :=
    fun v hv => handleAt_eq (by
      change set.gen v = _
      rw [hgen, Function.update_of_ne hv])
  have hne : (s.manager.withSet set).handleAt w ≠ s.manager.handleAt w := fun he => by
    have hg := congrArg generationOf he
    rw [generationOf_handleAt, generationOf_handleAt] at hg
    change set.gen w = _ at hg
    rw [hgen, Function.update_self] at hg
    simp at hg
  obtain ⟨hcalls, hlistening, hdequeued⟩ := hnoted
  refine ⟨hne, ⟨b', hb'⟩, ?_, fun v hv => ?_, rfl, rfl⟩
  · simp only [World.slot, World.setManager, World.calls, hself, hcalls, hlistening, hdequeued,
      if_neg hne.symm, decide_eq_false hne.symm]
    rfl
  · simp only [World.slot, World.setManager, World.calls, hother v hv, hhandle v hv]
    rfl

end Operations

end Server

end ServerStudy
