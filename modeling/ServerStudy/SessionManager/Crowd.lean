import ServerStudy.SessionManager.Pointers
import ServerStudy.Threads.Known
import ServerStudy.Threads.Play

/-!
# ServerStudy.SessionManager.Crowd

`Broadcast` while other threads create, connect, disconnect and release sessions.

A thread keeps the pointers that it is given, copies them, drops them and calls
the methods of the sessions they lead to, or takes over the pointer of an
`OverlappedEx` as a worker does.  Any number of threads do so, and any of them may
call `Broadcast`.  Nothing is one action that takes no lock: an operation on a pointer
is done in its parts, the check, the `fetch_add` or `fetch_sub`, the deleter and `Push`.
The sections of a session's mutexes are taken apart as well, so they keep nobody
out; there are more interleavings here than the mutexes leave.  Only the
`SendPacket` of a `Broadcast` and its snapshot are one action each.

* `delivered_iff` — a `SendPacket` of `Broadcast` is made on the session that the
  snapshot meant, unreleased, exactly when no release of its slot was under way at
  the snapshot or got any further since, and the entry was valid when followed;
* `delivered_later` — else the next occupant of the slot may get the packet.
-/

namespace ServerStudy

namespace SessionManager

namespace Crowd

variable {N : Nat}

/-! ## threads that share a manager -/

/-- What the kernel decides. -/
inductive Kernel : Type → Type where
  | wsaRecv (wsaBuf : WsaBuf) : Kernel WsaResult
  | wsaSend (wsaBuf : WsaBuf) : Kernel WsaResult
  | disconnectEx : Kernel BoolResult

/-- What became of a slot. -/
structure Tenancy where
  /-- how often a session was created in it -/
  created : Nat
  /-- the last reference to the last of them was not dropped -/
  live : Bool
  /-- how often a release of the slot began, by a count that fell to 0, or ended, by a `Push` -/
  releases : Nat
  deriving DecidableEq

/-- A `SendPacket` that `Broadcast` makes. -/
structure Delivery where
  /-- the handle in the snapshot -/
  handle : UInt64
  /-- the handle of the session that it is made on, if it is not made on a null pointer -/
  current : Option UInt64
  /-- the slot when the snapshot was taken -/
  before : Tenancy
  /-- the slot at the call -/
  after : Tenancy
  /-- `sessionPtrs_[idx]` was valid when `->` read it -/
  entry : Bool
  deriving DecidableEq

/-- The manager, and a history: what became of each slot, and what `Broadcast` sent. -/
structure Shared (N : Nat) where
  manager : SessionManager N
  tenancy : Fin N → Tenancy
  sent : List Delivery

/-- A thread's pointers; and within a `Broadcast` the slots as they were when it took its
snapshot, and whether the entry was valid that it follows. -/
structure Reg (N : Nat) where
  held : List SharedPoolPtr
  seen : Fin N → Tenancy
  entry : Bool

/-- What a write to the manager means to a slot.  Only a `Push` moves a generation, only a
`fetch_sub` takes a count from 1 to 0, and only the `Pop` of `CreateSession` makes a slot
pending. -/
def Tenancy.next (t : Tenancy) (m m' : SessionManager N) (w : Fin N) : Tenancy :=
  if m'.sessionPool_.set.gen w ≠ m.sessionPool_.set.gen w ∨
      m.refCount w = 1 ∧ m'.refCount w = 0 then
    { t with live := false, releases := t.releases + 1 }
  else if m.state w = 0 ∧ m'.state w = SessionState.kPending.toNat then
    { t with created := t.created + 1, live := true }
  else
    t

/-- The manager within it. -/
def managerLens : Lens (Shared N × Reg N) (SessionManager N) where
  get s := s.1.manager
  set m s := ({ s.1 with
    manager := m
    tenancy := fun w => (s.1.tenancy w).next s.1.manager m w }, s.2)
  get_set _ _ := rfl

/-- The manager, with a deleter for releases within a deleter.  The sessions that the
post-release function creates are one more thread's. -/
def serve (nested : Nat → Prog (Shared N × Reg N) Kernel Fault Unit) :
    ServerPort (Shared N × Reg N) Kernel N where
  manager := managerLens
  postRelease := return
  nested := nested
  wsaRecv _ wsaBuf := Prog.query (.wsaRecv wsaBuf)
  wsaSend _ wsaBuf := Prog.query (.wsaSend wsaBuf)
  disconnectEx _ := Prog.query .disconnectEx
  acceptEx _ := Prog.fault .emptyFunction
  setsockopt _ := Prog.fault .emptyFunction

/-- The deleter within `depth` deleters less than the stack has room for. -/
def nested (N : Nat) : Nat → Nat → Prog (Shared N × Reg N) Kernel Fault Unit
  | 0, _ => Prog.fault .endless
  | depth + 1, idx => deleter (serve (nested N depth)) idx

/-- The manager, with room for so many deleters on a stack. -/
abbrev port (N depth : Nat) : ServerPort (Shared N × Reg N) Kernel N := serve (nested N depth)

/-! ## `Broadcast` -/

section Broadcast

variable (P : ServerPort (Shared N × Reg N) Kernel N)

/-- Note a call for a handle in the snapshot. -/
def note (handle : UInt64) (idx : Fin N) (current : SessionManager N → Option UInt64)
    (s : Shared N × Reg N) : Shared N × Reg N :=
  ({ s.1 with
    sent := ⟨handle, current s.1.manager, s.2.seen idx, s.1.tenancy idx, s.2.entry⟩ :: s.1.sent },
    s.2)

/-- `sessionPtrs_[idx]->`, which notes whether the entry is valid; the call on a null pointer is
noted too. -/
def follow (handle : UInt64) (idx : Fin N) : Prog (Shared N × Reg N) Kernel Fault (Fin N) := do
  let p ← Prog.atomically do
    Prog.modify fun s =>
      let p := s.1.manager.sessionPtrs_ idx
      (s.1, { s.2 with entry := p.pool_ && s.1.manager.sessionPool_.set.isValid p.handle_ })
    (ptrLens P idx).read id
  derefOr P (do Prog.modify (note handle idx fun _ => none); Prog.fault .nullPointer) p

/-- `SendPacket` on the session in a slot. -/
def send (packet : List UInt8) (handle : UInt64) (w : Fin N) :
    Prog (Shared N × Reg N) Kernel Fault Bool := Prog.atomically do
  Prog.modify (note handle w fun m => some (m.handleAt w))
  sendPacket P packet w

/-- The snapshot. -/
def snapshot : Prog (Shared N × Reg N) Kernel Fault (List UInt64) := Prog.atomically do
  Prog.modify fun s => (s.1, { s.2 with seen := s.1.tenancy })
  SparsePool.getIndicesInState (pool P) SessionState.kConnected.toNat

/-- A turn for a handle to send to. -/
def turn (packet : List UInt8) (handle : UInt64) : Prog (Shared N × Reg N) Kernel Fault Unit :=
  sendBy P (follow P handle) (send P packet handle) handle

/-- `Broadcast`. -/
def broadcast (packet : List UInt8) (sessionHandle : UInt64) :
    Prog (Shared N × Reg N) Kernel Fault Bool := do
  let handles ← snapshot P
  broadcastLoop (turn P packet) sessionHandle handles

end Broadcast

/-! ## threads -/

/-- A thread keeps a pointer. -/
def keep (p : SharedPoolPtr) : Prog (Shared N × Reg N) Kernel Fault Unit :=
  Prog.modify fun s => (s.1, { s.2 with held := p :: s.2.held })

/-- The `i`th pointer of a thread. -/
def pointer (i : Nat) : Prog (Shared N × Reg N) Kernel Fault SharedPoolPtr :=
  Prog.read fun s => s.2.held.getD i .null

/-- The session in a slot; packets are not executed. -/
def session (P : ServerPort (Shared N × Reg N) Kernel N) (w : Fin N) :
    SessionPort (Shared N × Reg N) Kernel :=
  sessionPort P (fun _ => Prog.fault .emptyFunction) w

/-- What a thread does. -/
inductive Op (N : Nat) where
  | createSession
  | connectSession (handle : UInt64)
  | disconnectSession (handle : UInt64)
  | getSession (handle : UInt64)
  /-- copy the `i`th pointer -/
  | copy (i : Nat)
  /-- drop the `i`th pointer -/
  | drop (i : Nat)
  /-- a method of the session that the `i`th pointer leads to -/
  | connect (i : Nat)
  | disconnect (i : Nat)
  | clear (i : Nat)
  /-- take over the pointer of an `OverlappedEx` -/
  | take (w : Fin N) (i : Ov)
  | broadcast (packet : List UInt8) (sessionHandle : UInt64)

/-- The code of it. -/
def Op.prog (P : ServerPort (Shared N × Reg N) Kernel N) :
    Op N → Prog (Shared N × Reg N) Kernel Fault Unit
  | .createSession => Prog.inParts do keep (← SessionManager.createSession P)
  | .connectSession handle => Prog.inParts do let _ ← SessionManager.connectSession P handle
  | .disconnectSession handle => Prog.inParts (SessionManager.disconnectSession P handle)
  | .getSession handle => Prog.inParts do keep (← SessionManager.getSession P handle)
  | .copy i => Prog.inParts do
    let p ← pointer i
    keep (← SharedPoolPtr.copy (pool P) p)
  | .drop i => Prog.inParts do
    let p ← pointer i
    Prog.modify fun s => (s.1, { s.2 with held := s.2.held.eraseIdx i })
    destroy P p
  | .connect i => Prog.inParts do
    let _ ← Session.connect (session P (← deref P (← pointer i)))
  | .disconnect i => Prog.inParts do
    let _ ← Session.disconnect (session P (← deref P (← pointer i)))
  | .clear i => Prog.inParts do
    let _ ← Session.clear (session P (← deref P (← pointer i)))
  | .take w i => Prog.inParts do keep (← SharedPoolPtr.move (ovPtrLens P w i))
  | .broadcast packet sessionHandle => do let _ ← Crowd.broadcast P packet sessionHandle

/-- The threads; between operations a thread has its pointers only. -/
abbrev client (N depth : Nat) : Client (Shared N) (List SharedPoolPtr) Kernel Fault where
  Op := Op N
  Reg := Reg N
  can _ _ := True
  enter _ l := ⟨l, fun _ => ⟨0, false, 0⟩, false⟩
  prog := Op.prog (port N depth)
  leave _ _ reg := reg.held

/-- Anything may be answered. -/
def anything : Answers (Shared N × Reg N) Kernel := fun _ _ _ _ => True

variable {ι : Type} {depth : Nat}

/-- No session was created, and no thread has a pointer. -/
def start (N depth : Nat) : Config (client N depth) ι :=
  ⟨⟨.new N, fun _ => ⟨0, false, 0⟩, []⟩, fun _ => ⟨[], none⟩⟩

variable [DecidableEq ι]

/-- Reached by steps of any threads. -/
def Reachable (c : Config (client N depth) ι) : Prop :=
  Config.Reach anything (fun _ => True) (start N depth) c

/-! ## how the slots go on -/

/-- A pointer is about a slot. -/
def About (w : Fin N) (p : SharedPoolPtr) : Prop := p.pool_ = true → (whoOf p.handle_).toNat = w

/-- The packet goes to the session that the snapshot meant, and it is not released. -/
def Delivery.Meant (e : Delivery) : Prop :=
  e.current = some e.handle ∧ e.after.live = true ∧ e.after.created = e.before.created

/-- No release was under way at the snapshot or got any further since, and the entry was valid. -/
def Delivery.Undisturbed (e : Delivery) : Prop :=
  e.before.live = true ∧ e.after.releases = e.before.releases ∧ e.entry = true

/-- The array is in order, and so is what was sent. -/
structure Tracked (s : Shared N) : Prop where
  repr : ∃ b, SparseSet.Repr s.manager.sessionPool_.set b
  entry : ∀ w, About w (s.manager.sessionPtrs_ w)
  sent : ∀ e ∈ s.sent, e.Meant ↔ e.Undisturbed

/-- How the slots may go on: until its next release a slot keeps its handle, stays in use if it is,
and then its history stays as well; and none comes to life but by a new session. -/
structure Ahead (s s' : Shared N) : Prop where
  created : ∀ w, (s.tenancy w).created ≤ (s'.tenancy w).created
  releases : ∀ w, (s.tenancy w).releases ≤ (s'.tenancy w).releases
  same : ∀ w, (s'.tenancy w).releases = (s.tenancy w).releases →
    s'.manager.handleAt w = s.manager.handleAt w ∧
      (s.manager.state w ≠ 0 → s'.manager.state w ≠ 0 ∧ s'.tenancy w = s.tenancy w)
  live : ∀ w, (s'.tenancy w).live = true →
    (s.tenancy w).created < (s'.tenancy w).created ∨ s'.tenancy w = s.tenancy w

/-- Nothing has happened. -/
theorem Ahead.refl (s : Shared N) : Ahead s s where
  created _ := le_rfl
  releases _ := le_rfl
  same _ _ := ⟨rfl, fun h => ⟨h, rfl⟩⟩
  live _ _ := .inr rfl

/-- One thing after another. -/
theorem Ahead.trans {s s' s'' : Shared N} (h : Ahead s s') (h' : Ahead s' s'') : Ahead s s'' where
  created w := (h.created w).trans (h'.created w)
  releases w := (h.releases w).trans (h'.releases w)
  same w hw := by
    have hle := h.releases w
    have hle' := h'.releases w
    obtain ⟨hhandle, hused⟩ := h.same w (by omega)
    obtain ⟨hhandle', hused'⟩ := h'.same w (by omega)
    refine ⟨hhandle'.trans hhandle, fun hstate => ?_⟩
    obtain ⟨hstate', htenancy⟩ := hused hstate
    exact ⟨(hused' hstate').1, (hused' hstate').2.trans htenancy⟩
  live w hw := by
    have hle := h.created w
    rcases h'.live w hw with hlt | heq
    · exact .inl (by omega)
    · rw [heq] at hw ⊢
      exact h.live w hw

/-- What was in order is so afterwards, the slots went on as they may, and the thread's snapshot is
the same. -/
def Tame (x x' : Shared N × Reg N) : Prop :=
  (Tracked x.1 → Tracked x'.1 ∧ Ahead x.1 x'.1) ∧ x'.2.seen = x.2.seen ∧ x'.2.entry = x.2.entry

/-- An action that changes nothing. -/
theorem Tame.refl (x : Shared N × Reg N) : Tame x x := ⟨fun h => ⟨h, .refl _⟩, rfl, rfl⟩

/-- Two actions. -/
theorem Tame.trans {x x' x'' : Shared N × Reg N} (h : Tame x x') (h' : Tame x' x'') : Tame x x'' :=
  ⟨fun ht => ⟨(h'.1 (h.1 ht).1).1, (h.1 ht).2.trans (h'.1 (h.1 ht).1).2⟩,
    h'.2.1.trans h.2.1, h'.2.2.trans h.2.2⟩

/-- Every action of the program is tame, its sections taken apart. -/
abbrev Tames {α : Type} (p : Prog (Shared N × Reg N) Kernel Fault α) : Prop :=
  p.inParts.Every anything Tame

section Actions

variable {α β : Type} {p : Prog (Shared N × Reg N) Kernel Fault α}

/-- A program of tame parts. -/
theorem Tames.bind {f : α → Prog (Shared N × Reg N) Kernel Fault β} (hp : Tames p)
    (hf : ∀ a, Tames (f a)) : Tames (p.bind f) := by
  rw [Tames, Prog.inParts_bind]
  exact Prog.Every.bind hp hf

/-- A section is tame when what it does is. -/
theorem Tames.section (hp : Tames p) : Tames (Prog.atomically p) :=
  Prog.Every.bind hp fun _ => trivial

/-- A branch, either of which is tame. -/
theorem Tames.ite {c : Prop} [Decidable c] {q : Prog (Shared N × Reg N) Kernel Fault α}
    (hp : Tames p) (hq : Tames q) : Tames (if c then p else q) := by
  split_ifs
  · exact hp
  · exact hq

/-- A write that is tame wherever it happens. -/
theorem tames_modify {f : Shared N × Reg N → Shared N × Reg N} (hf : ∀ s, Tame s (f s)) :
    Tames (Prog.modify f) := .modify hf

/-- A write of a part. -/
theorem tames_lens_modify {l : Lens (Shared N × Reg N) α} (hl : ∀ s a, Tame s (l.set a s))
    (f : α → α) : Tames (l.modify f) := tames_modify fun _ => hl _ _

/-- A read. -/
theorem tames_read (f : Shared N × Reg N → β) : Tames (Prog.read f) := .read Tame.refl f

/-- A read of a part. -/
theorem tames_lens_read (l : Lens (Shared N × Reg N) α) (f : α → β) : Tames (l.read f) :=
  tames_read _

/-- A read that may fault. -/
theorem tames_view (l : Lens (Shared N × Reg N) α) (f : α → Except Fault β) : Tames (l.view f) :=
  .view Tame.refl l f

/-- A result that is known already. -/
theorem tames_lift (x : Except Fault β) :
    Tames (Prog.lift x : Prog (Shared N × Reg N) _ _ β) := .lift Tame.refl x

/-- A fault. -/
theorem tames_fault (e : Fault) : Tames (Prog.fault e : Prog (Shared N × Reg N) _ _ β) := .fault e

/-- A question to the kernel. -/
theorem tames_query (q : Kernel β) : Tames (Prog.query q : Prog (Shared N × Reg N) _ _ β) :=
  .query q

/-- Run alone, a tame program is tame as a whole. -/
theorem Tames.wp (hp : Tames p) (s : Shared N × Reg N) :
    Prog.wp anything (fun _ => True) p (fun _ s' => Tame s s') s :=
  Prog.wp_inParts.mp (Prog.Every.wp Tame.refl (fun _ _ _ => Tame.trans) hp s)

end Actions

/-! ## parts of the manager -/

variable {nested : Nat → Prog (Shared N × Reg N) Kernel Fault Unit}

/-- A write that keeps the array in order, and by which a slot leaves the states of use only with
its generation. -/
theorem tame_manager (s : Shared N × Reg N) {m : SessionManager N}
    (hset : (∃ b, SparseSet.Repr s.1.manager.sessionPool_.set b) →
      (∃ b, SparseSet.Repr m.sessionPool_.set b) ∧
        ∀ w, m.sessionPool_.set.gen w = s.1.manager.sessionPool_.set.gen w →
          s.1.manager.state w ≠ 0 → m.state w ≠ 0)
    (hentry : ∀ w, About w (s.1.manager.sessionPtrs_ w) → About w (m.sessionPtrs_ w)) :
    Tame s (managerLens.set m s) := by
  refine ⟨fun ht => ?_, rfl, rfl⟩
  obtain ⟨hrepr, hused⟩ := hset ht.repr
  refine ⟨⟨hrepr, fun w => hentry w (ht.entry w), ht.sent⟩,
    fun w => ?_, fun w => ?_, fun w => ?_, fun w => ?_⟩ <;>
    simp only [managerLens, Tenancy.next]
  · split_ifs <;> simp
  · split_ifs <;> simp
  · split_ifs with hrelease hpop
    · exact fun h => absurd h (by simp)
    all_goals
      rw [not_or, not_not] at hrelease
      refine fun _ => ⟨?_, fun hs => ?_⟩
      · rw [handleAt, handleAt, SparseSet.handleAt, hrelease.1]
        rfl
    · exact absurd hpop.1 hs
    · exact ⟨hused w hrelease.1 hs, rfl⟩
  · split_ifs <;> simp

/-- The sessions are not the pool's. -/
theorem tame_session (w : Fin N) (s : Shared N × Reg N) (x : Session) :
    Tame s ((sessionLens (serve nested) w).set x s) :=
  tame_manager s (fun h => ⟨h, fun _ _ => id⟩) fun _ => id

/-- Nor are the pointers in the operations. -/
theorem tame_ovPtr (w : Fin N) (i : Ov) (s : Shared N × Reg N) (p : SharedPoolPtr) :
    Tame s ((ovPtrLens (serve nested) w i).set p s) :=
  tame_manager s (fun h => ⟨h, fun _ _ => id⟩) fun _ => id

/-- An entry may be given a pointer to its own slot, or none. -/
theorem tame_entry {w : Fin N} {p : SharedPoolPtr} (hp : About w p) (s : Shared N × Reg N) :
    Tame s ((ptrLens (serve nested) w).set p s) := by
  refine tame_manager s (fun h => ⟨h, fun _ _ => id⟩) fun v hv => ?_
  show About v (Function.update s.1.manager.sessionPtrs_ w p v)
  by_cases hvw : v = w
  · subst hvw
    rwa [Function.update_self]
  · rwa [Function.update_of_ne hvw]

/-- A write to a pointer within the manager's state. -/
abbrev TamePtr (l : Lens (Shared N × Reg N) SharedPoolPtr) (p : SharedPoolPtr) : Prop :=
  ∀ s, Tame s (l.set p s)

/-- The null pointer is about every slot. -/
theorem about_null (w : Fin N) : About w .null := fun hp => absurd hp Bool.false_ne_true

/-! ## the pool -/

/-- An update of the pool that keeps its set of handles in order, and by which a slot leaves the
states of use only with its generation. -/
theorem tames_pool {β : Type}
    {f : Pool N SessionState.kCnt → Except Fault (β × Pool N SessionState.kCnt)}
    (hf : ∀ p b p' x, f p = .ok (b, p') → SparseSet.Repr p.set x →
      (∃ y, SparseSet.Repr p'.set y) ∧ ∀ w, p'.set.gen w = p.set.gen w →
        (p.set.sparse_ w).state_ ≠ 0 → (p'.set.sparse_ w).state_ ≠ 0) :
    Tames ((poolLens (serve nested)).update f) :=
  Prog.Every.update fun s b s' h => by
    cases hr : f ((poolLens (serve nested)).get s) with
    | error e =>
        rw [hr] at h
        cases h
    | ok r =>
        rw [hr] at h
        obtain ⟨-, rfl⟩ := Prod.mk.inj (Except.ok.inj h)
        exact tame_manager s (fun ⟨x, hx⟩ => hf _ _ _ x hr hx) fun _ => id

/-- The set of handles is not touched. -/
theorem tames_counts {β : Type}
    {f : Pool N SessionState.kCnt → Except Fault (β × Pool N SessionState.kCnt)}
    (hf : ∀ p b p', f p = .ok (b, p') → p'.set = p.set) :
    Tames ((poolLens (serve nested)).update f) :=
  tames_pool fun p b p' x h hx => by
    rw [hf p b p' h]
    exact ⟨⟨x, hx⟩, fun _ _ => id⟩

/-- An operation of the set that succeeds puts the new set in the pool. -/
theorem onSet_eq_ok {β : Type} {K : Nat} {f : SparseSet N K → Option (β × SparseSet N K)}
    {p p' : Pool N K} {b : β} (h : SparsePool.onSet f p = .ok (b, p')) :
    f p.set = some (b, p'.set) := by
  cases hf : f p.set with
  | none =>
      rw [SparsePool.onSet, hf] at h
      cases h
  | some r =>
      rw [SparsePool.onSet, hf] at h
      cases h
      rfl

/-- Where one slot moves to a state of use, none leaves them. -/
theorem used_of_moveTo {K : Nat} {set set' : SparseSet N K} {b : Blocks N K} {w : Fin N}
    {x : Fin K} (h : SparseSet.Repr set b) (h' : SparseSet.Repr set' (b.moveTo w x))
    (hx : (x : Nat) ≠ 0) (v : Fin N) (hv : (set.sparse_ v).state_ ≠ 0) : (set'.sparse_ v).state_ ≠ 0 := by
  rw [h.state] at hv
  rw [h'.state, Blocks.block_moveTo]
  by_cases hvw : v = w
  · rwa [hvw, Function.update_self]
  · rwa [Function.update_of_ne hvw]

/-- A slot that is moved to a state of use stays in use, and so do the others. -/
theorem tames_moveToState (hN : N < 2 ^ 32) (h : UInt64) {x : Nat} (hx : x ≠ 0) :
    Tames (SparsePool.moveToState (pool (serve nested)) h x) :=
  tames_pool fun p b p' blocks hp hrepr => by
    have hmove := onSet_eq_ok hp
    by_cases hbad : x ≥ SessionState.kCnt ∨ p.set.isValid h = false
    · rw [SparseSet.moveToState_refused _ hbad] at hmove
      rw [← (Prod.mk.inj (Option.some.inj hmove)).2]
      exact ⟨⟨blocks, hrepr⟩, fun _ _ => id⟩
    · rw [not_or, Bool.not_eq_false] at hbad
      obtain ⟨w, rfl⟩ := (SparseSet.isValid_iff hN _ _).mp hbad.2
      obtain ⟨set, hset, hrepr', -⟩ := SparseSet.moveToState_repr hN hrepr w ⟨x, by omega⟩
      rw [hset] at hmove
      rw [← (Prod.mk.inj (Option.some.inj hmove)).2]
      exact ⟨⟨_, hrepr'⟩, fun v _ => used_of_moveTo hrepr hrepr' hx v⟩

/-- Taking an idle slot leaves those in use. -/
theorem tames_popLocked (hN : N < 2 ^ 32) {x : Nat} (hx : x ≠ 0) :
    Tames ((poolLens (serve nested)).update (SparsePool.popLocked x)) :=
  tames_pool fun p b p' blocks hp hrepr => by
    cases hpop : SparsePool.onSet (fun s => s.pop x) p with
    | error e =>
        rw [SparsePool.popLocked, hpop] at hp
        cases hp
    | ok r =>
        rw [SparsePool.popLocked, hpop] at hp
        cases hp
        have hpop := onSet_eq_ok hpop
        by_cases hge : x ≥ SessionState.kCnt
        · rw [SparseSet.pop_refused _ hge] at hpop
          rw [← (Prod.mk.inj (Option.some.inj hpop)).2]
          exact ⟨⟨blocks, hrepr⟩, fun _ _ => id⟩
        by_cases hidle : ∃ w, (blocks.block w : Nat) = 0
        · obtain ⟨w, set, -, -, hset, hrepr', -⟩ := SparseSet.pop_repr hN hrepr ⟨x, by omega⟩ hidle
          rw [hset] at hpop
          rw [← (Prod.mk.inj (Option.some.inj hpop)).2]
          exact ⟨⟨_, hrepr'⟩, fun v _ => used_of_moveTo hrepr hrepr' hx v⟩
        · rw [SparseSet.pop_empty hrepr (by decide) (by omega) (not_exists.mp hidle)] at hpop
          rw [← (Prod.mk.inj (Option.some.inj hpop)).2]
          exact ⟨⟨blocks, hrepr⟩, fun _ _ => id⟩

/-- `Push` moves the generation of the slot that it frees. -/
theorem tames_push (hN : N < 2 ^ 32) (h : UInt64) :
    Tames ((poolLens (serve nested)).update (SparsePool.onSet fun s => s.push h)) :=
  tames_pool fun p b p' blocks hp hrepr => by
    have hpush := onSet_eq_ok hp
    by_cases hv : p.set.isValid h = true
    · obtain ⟨w, rfl⟩ := (SparseSet.isValid_iff hN _ _).mp hv
      obtain ⟨set, hset, hrepr', hgen⟩ := SparseSet.push_repr hN hrepr (by decide) w
      rw [hset] at hpush
      rw [← (Prod.mk.inj (Option.some.inj hpush)).2]
      refine ⟨⟨_, hrepr'⟩, fun v hsame hstate => ?_⟩
      rw [hrepr.state] at hstate
      rw [hrepr'.state, Blocks.block_moveTo]
      by_cases hvw : v = w
      · subst hvw
        rw [hgen, Function.update_self] at hsame
        exact absurd hsame (by simp)
      · rwa [Function.update_of_ne hvw]
    · rw [SparseSet.push_refused _ (by simpa using hv)] at hpush
      rw [← (Prod.mk.inj (Option.some.inj hpush)).2]
      exact ⟨⟨blocks, hrepr⟩, fun _ _ => id⟩

/-- `IsValid` reads the generation. -/
theorem tames_isValid (h : UInt64) : Tames (SparsePool.isValid (pool (serve nested)) h) :=
  tames_lens_read _ _

/-- The slot of a handle is computed. -/
theorem tames_slot (h : UInt64) : Tames (slot h : Prog (Shared N × Reg N) _ _ (Fin N)) :=
  tames_lift _

/-- `AddRef` counts. -/
theorem tames_addRef (h : UInt64) : Tames (SparsePool.addRef (pool (serve nested)) h) :=
  (tames_isValid h).bind fun _ => .ite trivial
    ((tames_counts fun _ _ _ => SparsePool.fetchAdd_set).bind fun _ => trivial)

/-! ## releases -/

/-- `ReleaseRef`, with a pool whose deleter is tame. -/
theorem tames_releaseRef_by (hN : N < 2 ^ 32)
    {deleter : Nat → Prog (Shared N × Reg N) Kernel Fault Unit} (hd : ∀ idx, Tames (deleter idx)) (h : UInt64) :
    Tames (SparsePool.releaseRef ⟨poolLens (serve nested), deleter, return⟩ h) :=
  (tames_lens_read (poolLens (serve nested)) _).bind fun _ => .ite trivial
    ((tames_counts fun _ _ _ => SparsePool.fetchSub_set).bind fun _ => .ite
      ((hd _).bind fun _ => (tames_push hN h).bind fun _ => trivial) trivial)

/-- `Reset` of a pointer, with a pool whose releases are tame. -/
theorem tames_ptrReset {P : PoolPort (Shared N × Reg N) Kernel N SessionState.kCnt}
    {l : Lens (Shared N × Reg N) SharedPoolPtr} (hl : TamePtr l .null)
    (hrelease : ∀ h, Tames (SparsePool.releaseRef P h)) : Tames (SharedPoolPtr.reset P l) :=
  (tames_lens_read l id).bind fun _ => .ite ((tames_lens_read P.pool _).bind fun _ => .ite
    ((hrelease _).bind fun _ => .ite trivial ((tames_modify fun s => hl s).bind fun _ => trivial))
    trivial) trivial

/-- `Reset` of an `OverlappedEx`, when the deleter within it is tame. -/
theorem tames_resetOv (hN : N < 2 ^ 32) (hn : ∀ idx, Tames (nested idx)) (w : Fin N) (i : Ov) :
    Tames (resetOv (serve nested) w i) := by
  refine (tames_lens_modify (fun s x => ?_) _).bind fun _ => ?_
  · exact tame_session w s _
  · exact Tames.bind (tames_ptrReset (fun s => tame_ovPtr w i s _) (tames_releaseRef_by hN hn))
      fun _ => trivial

/-- The deleter, when the deleter within it is tame. -/
theorem tames_deleter (hN : N < 2 ^ 32) (hn : ∀ idx, Tames (nested idx)) (idx : Nat) :
    Tames (deleter (serve nested) idx) :=
  (tames_lift _).bind fun w => (tames_resetOv hN hn w .read).bind fun _ =>
    (tames_resetOv hN hn w .write).bind fun _ =>
      (tames_lens_modify (tame_session w) _).bind fun _ => tames_lens_modify (tame_session w) _

/-- However deep deleters are nested, they are tame. -/
theorem tames_nested (hN : N < 2 ^ 32) (depth idx : Nat) : Tames (Crowd.nested N depth idx) := by
  induction depth generalizing idx with
  | zero => exact tames_fault _
  | succ depth ih => exact tames_deleter hN ih idx

section Pointers

variable (hN : N < 2 ^ 32) (hn : ∀ idx, Tames (nested idx))
include hN hn

/-- `ReleaseRef`, with the deleter and `Push` of the last release. -/
theorem tames_releaseRef (h : UInt64) : Tames (SparsePool.releaseRef (pool (serve nested)) h) :=
  tames_releaseRef_by hN (tames_deleter hN hn) h

/-- `Reset` of a pointer. -/
theorem tames_reset {l : Lens (Shared N × Reg N) SharedPoolPtr} (hl : TamePtr l .null) :
    Tames (SessionManager.reset (serve nested) l) :=
  Tames.bind (tames_ptrReset hl (tames_releaseRef hN hn)) fun _ => trivial

/-- The assignment of one, which releases what was there. -/
theorem tames_assign {l : Lens (Shared N × Reg N) SharedPoolPtr} {p : SharedPoolPtr}
    (hl : TamePtr l p) : Tames (assign (serve nested) l p) :=
  (tames_lens_read l id).bind fun _ => .ite
    ((tames_releaseRef hN hn _).bind fun _ => tames_modify hl) (tames_modify hl)

/-- Its destructor. -/
theorem tames_destroy (p : SharedPoolPtr) : Tames (destroy (serve nested) p) :=
  .ite ((tames_isValid _).bind fun _ => .ite
    ((tames_releaseRef hN hn _).bind fun _ => trivial) trivial) trivial

end Pointers

/-! ## methods -/

/-- A copy of a pointer, which counts. -/
theorem tames_copy (p : SharedPoolPtr) : Tames (SharedPoolPtr.copy (pool (serve nested)) p) :=
  .ite ((tames_addRef _).bind fun _ => trivial) trivial

/-- A copy of one in memory. -/
theorem tames_copyOf (l : Lens (Shared N × Reg N) SharedPoolPtr) :
    Tames (copyOf (serve nested) l) :=
  (tames_lens_read l id).bind fun p => tames_copy p

/-- The validity of a pointer. -/
theorem tames_ptrIsValid (p : SharedPoolPtr) :
    Tames (SharedPoolPtr.isValid (pool (serve nested)) p) :=
  .ite (tames_isValid _) trivial

/-- Following a pointer. -/
theorem tames_deref (p : SharedPoolPtr) : Tames (deref (serve nested) p) :=
  (tames_ptrIsValid p).bind fun _ => .ite (tames_fault _) ((tames_isValid _).bind fun _ =>
    .ite (tames_fault _) (tames_slot _))

/-- `GetSession` copies the entry of the array. -/
theorem tames_getSession (h : UInt64) : Tames (getSession (serve nested) h) :=
  (tames_isValid h).bind fun _ => .ite trivial ((tames_slot h).bind fun _ => tames_copyOf _)

/-- `sessionManager_` is read. -/
theorem tames_managerOf (w : Fin N) : Tames (managerOf (serve nested) w) :=
  tames_view _ _

/-- `Acquire` takes an idle handle and counts once. -/
theorem tames_acquire (hN : N < 2 ^ 32) :
    Tames (SparsePool.acquire (pool (serve nested)) SessionState.kPending.toNat) :=
  (tames_popLocked hN (by decide)).bind fun _ => .ite trivial
    ((tames_counts fun _ _ _ => SparsePool.setHandle_set).bind fun _ =>
      (tames_addRef _).bind fun _ => trivial)

section Methods

variable (hN : N < 2 ^ 32) (hn : ∀ idx, Tames (nested idx))
include hN hn

/-- `DisconnectSession` resets the entry. -/
theorem tames_disconnectSession (h : UInt64) : Tames (disconnectSession (serve nested) h) :=
  (tames_isValid h).bind fun _ => .ite trivial ((tames_slot h).bind fun w =>
    tames_reset hN hn (tame_entry (about_null w)))

end Methods

section Session

variable (w : Fin N)

/-- An action on the session itself. -/
theorem tames_update {β : Type} (f : Session → Except Fault (β × Session)) :
    Tames ((session (serve nested) w).self.update f) := Prog.Every.set (tame_session w) f

/-- A write of the session. -/
theorem tames_change (f : Session → Session) : Tames ((session (serve nested) w).self.modify f) :=
  tames_lens_modify (tame_session w) f

/-- Its state is read off the pool. -/
theorem tames_getState (h : UInt64) : Tames ((session (serve nested) w).getState h) :=
  (tames_managerOf w).bind fun _ =>
    tames_lens_read (poolLens (serve nested)) fun p => p.set.getState h

variable (hN : N < 2 ^ 32) (hn : ∀ idx, Tames (nested idx))
include hN hn

/-- An operation is given the pointer that `GetSession` finds. -/
theorem tames_assignSessionPtr (i : Ov) (h : UInt64) :
    Tames ((session (serve nested) w).assignSessionPtr i h) :=
  (tames_managerOf w).bind fun _ => (tames_getSession h).bind fun p =>
    tames_assign hN hn fun s => tame_ovPtr w i s p

/-- An operation lets go of its pointer. -/
theorem tames_resetSessionPtr (i : Ov) : Tames ((session (serve nested) w).resetSessionPtr i) :=
  tames_reset hN hn fun s => tame_ovPtr w i s _

/-- What follows a `WSARecv` or a `WSASend`. -/
theorem tames_posted (i : Ov) (r : WsaResult) : Tames (match r with
    | .ok => return true
    | .socketError errorCode => do
      if errorCode = WSA_IO_PENDING then
        return true
      (session (serve nested) w).resetSessionPtr i
      return false) := by
  cases r with
  | ok => trivial
  | socketError errorCode =>
      exact .ite trivial ((tames_resetSessionPtr w hN hn i).bind fun _ => trivial)

/-- `RegisterRead` touches the receiving side, and a pointer. -/
theorem tames_registerRead : Tames (Session.registerRead (session (serve nested) w)) :=
  (tames_update w _).bind fun _ => .ite trivial ((tames_change w _).bind fun _ =>
    (tames_lens_read _ _).bind fun h => (tames_assignSessionPtr w hN hn .read h).bind fun _ =>
      (tames_lens_read _ _).bind fun _ => Tames.bind (tames_query _) fun r =>
        tames_posted w hN hn .read r)

/-- `RegisterWriteInternal` touches the sending side, and a pointer. -/
theorem tames_registerWrite : Tames (Session.registerWriteInternal (session (serve nested) w)) :=
  (tames_update w _).bind fun _ => (tames_lens_read _ _).bind fun h =>
    (tames_assignSessionPtr w hN hn .write h).bind fun _ => (tames_lens_read _ _).bind fun _ =>
      Tames.bind (tames_query _) fun r => tames_posted w hN hn .write r

/-- `SendPacket`. -/
theorem tames_sendPacket (packet : List UInt8) :
    Tames (Session.sendPacket (session (serve nested) w) packet) :=
  Tames.section ((tames_lens_read _ _).bind fun _ => .ite trivial ((tames_update w _).bind fun _ =>
    (tames_lens_read _ _).bind fun _ => .ite ((tames_change w _).bind fun _ =>
      (tames_registerWrite w hN hn).bind fun _ => .ite trivial trivial) trivial))

/-- `Connect` moves the slot on, sends the welcome packet and receives. -/
theorem tames_connect : Tames (Session.connect (session (serve nested) w)) := by
  have hlocked : Tames (Session.connectLocked (session (serve nested) w)) :=
    Tames.section ((tames_lens_read _ _).bind fun h => (tames_getState w h).bind fun _ =>
      .ite trivial (((tames_managerOf w).bind fun _ => tames_moveToState hN _ (by decide)).bind
        fun _ => .ite trivial trivial))
  exact hlocked.bind fun _ => .ite trivial ((tames_lens_read _ _).bind fun _ =>
    (tames_sendPacket w hN hn _).bind fun _ => .ite trivial
      ((tames_registerRead w hN hn).bind fun _ => .ite trivial trivial))

/-- `Disconnect` moves the slot on. -/
theorem tames_disconnect : Tames (Session.disconnect (session (serve nested) w)) := by
  have hlocked : Tames (Session.disconnectLocked (session (serve nested) w)) :=
    Tames.section ((tames_lens_read _ _).bind fun h => (tames_getState w h).bind fun _ =>
      .ite (((tames_managerOf w).bind fun _ => tames_moveToState hN _ (by decide)).bind fun _ =>
        .ite trivial trivial) (.ite trivial trivial))
  refine hlocked.bind fun r => ?_
  cases r with
  | some result => trivial
  | none =>
      exact (tames_change w _).bind fun _ => (tames_lens_read _ _).bind fun h =>
        (tames_assignSessionPtr w hN hn .disconnect h).bind fun _ =>
          Tames.bind (Tames.bind (tames_query _) fun _ => trivial) fun _ =>
            .ite (.ite trivial trivial) trivial

/-- `Clear`. -/
theorem tames_clear : Tames (Session.clear (session (serve nested) w)) :=
  (tames_lens_read _ _).bind fun h => Tames.bind ((tames_managerOf w).bind fun _ =>
    tames_disconnectSession hN hn h) fun _ => trivial

end Session

/-! ## what a thread knows -/

/-- A slot of the snapshot, as it went on since. -/
structure Since (h : UInt64) (w : Fin N) (t : Tenancy) (s : Shared N) : Prop where
  created : t.created ≤ (s.tenancy w).created
  releases : t.releases ≤ (s.tenancy w).releases
  same : (s.tenancy w).releases = t.releases →
    s.manager.handleAt w = h ∧ s.manager.state w ≠ 0 ∧ s.tenancy w = t
  live : (s.tenancy w).live = true → t.created < (s.tenancy w).created ∨ s.tenancy w = t

/-- A slot in use, when it is seen. -/
theorem since_now {s : Shared N} {w : Fin N} (h : s.manager.state w ≠ 0) :
    Since (s.manager.handleAt w) w (s.tenancy w) s :=
  ⟨le_rfl, le_rfl, fun _ => ⟨rfl, h, rfl⟩, fun _ => .inr rfl⟩

/-- It is still so later on. -/
theorem Since.ahead {h : UInt64} {w : Fin N} {t : Tenancy} {s s' : Shared N} (hA : Ahead s s')
    (hs : Since h w t s) : Since h w t s' where
  created := hs.created.trans (hA.created w)
  releases := hs.releases.trans (hA.releases w)
  same hsame := by
    have hle := hs.releases
    have hle' := hA.releases w
    obtain ⟨hhandle, hstate, htenancy⟩ := hs.same (by omega)
    obtain ⟨hhandle', hused⟩ := hA.same w (by omega)
    obtain ⟨hstate', htenancy'⟩ := hused hstate
    exact ⟨hhandle'.trans hhandle, hstate', htenancy'.trans htenancy⟩
  live hlive := by
    have hle := hs.created
    rcases hA.live w hlive with hlt | heq
    · exact .inl (by omega)
    · rw [heq] at hlive ⊢
      exact hs.live hlive

/-- What is so as long as the slot is not released further. -/
def Still (w : Fin N) (n : Nat) (p : Prop) (s : Shared N) : Prop :=
  n ≤ (s.tenancy w).releases ∧ ((s.tenancy w).releases = n → p)

/-- What was so and has not ended is still so. -/
theorem Still.ahead {w : Fin N} {n : Nat} {p : Prop} {s s' : Shared N} (hA : Ahead s s')
    (h : Still w n p s) : Still w n p s' := by
  have hle := hA.releases w
  exact ⟨h.1.trans hle, fun hn => h.2 (by have := h.1; omega)⟩

/-- Nothing but the releases of the slot counts. -/
theorem Since.still {h : UInt64} {w : Fin N} {t : Tenancy} {s : Shared N} {p : Prop}
    (hs : Since h w t s) (hp : s.manager.handleAt w = h → p) : Still w t.releases p s :=
  ⟨hs.releases, fun hn => hp (hs.same hn).1⟩

section Safe

variable {α β : Type} {post : β → Reg N → Multiset (Lasting (Ahead (N := N))) → Prop} {reg : Reg N}
  {r : Multiset (Lasting (Ahead (N := N)))}

/-- The program keeps everything tracked, and ends in `post`. -/
abbrev Keeps (depth : Nat) (p : Prog (Shared N × Reg N) Kernel Fault β)
    (post : β → Reg N → Multiset (Lasting (Ahead (N := N))) → Prop) (reg : Reg N)
    (r : Multiset (Lasting (Ahead (N := N)))) : Prop :=
  Safe (.knowing (client N depth) Tracked Ahead) anything (fun _ => True) p post reg r

/-- Tame actions leave the thread what it knows, and its snapshot. -/
theorem keeps_every {p : Prog (Shared N × Reg N) Kernel Fault β} (hp : p.Every anything Tame)
    (hpost : ∀ a reg', reg'.seen = reg.seen → reg'.entry = reg.entry → post a reg' r) :
    Keeps depth p post reg r := by
  have hsafe : Keeps depth p (fun _ reg' r' => r' = r ∧ reg'.seen = reg.seen ∧
      reg'.entry = reg.entry) reg r :=
    Prog.Every.knowing (C := client N depth) (G := Tame)
      (H := fun reg reg' : Reg N => reg'.seen = reg.seen ∧ reg'.entry = reg.entry)
      (fun _ => ⟨rfl, rfl⟩) (fun _ _ _ h h' => ⟨h'.1.trans h.1, h'.2.trans h.2⟩)
      (fun _ _ hx hG => ⟨(hG.1 hx).1, (hG.1 hx).2, hG.2⟩) hp reg
  refine hsafe.mono (fun _ h => h) fun a reg' r' h => ?_
  rw [h.1]
  exact hpost a reg' h.2.1 h.2.2

/-- A tame program in front. -/
theorem Tames.before {p : Prog (Shared N × Reg N) Kernel Fault α}
    {f : α → Prog (Shared N × Reg N) Kernel Fault β} (hp : Tames p)
    (hf : ∀ a reg', Keeps depth (f a).inParts post reg' r) :
    Keeps depth (p.bind f).inParts post reg r := by
  rw [Prog.inParts_bind]
  exact Safe.bind (keeps_every hp fun a reg' _ _ => hf a reg')

/-- The slot of a handle. -/
theorem keeps_slot {post : Fin N → Reg N → Multiset (Lasting (Ahead (N := N))) → Prop} {h : UInt64}
    (hpost : ∀ w : Fin N, (whoOf h).toNat = w → post w reg r) :
    Keeps depth (slot h) post reg r := by
  refine Safe.learn_update fun s hs hr => ?_
  by_cases hlt : (whoOf h).toNat < N
  · rw [dif_pos hlt, Prog.wp_update_ok rfl]
    exact .nothing hs (.refl s) (hpost _ rfl)
  · rw [dif_neg hlt]
    trivial

/-- `CreateSession`: the entry is set to a pointer about its slot. -/
theorem keeps_createSession (hN : N < 2 ^ 32) (hn : ∀ idx, Tames (nested idx)) :
    Keeps depth (createSession (serve nested)).inParts (fun _ _ _ => True) reg r := by
  refine (tames_acquire hN).before fun p _ => (tames_ptrIsValid p).before fun valid _ => ?_
  cases valid with
  | false => exact ⟨trivial, trivial⟩
  | true =>
      refine (tames_deref p).before fun w _ =>
        (tames_lens_modify (tame_session w) _).before fun _ _ =>
          (tames_deref p).before fun w _ =>
            (tames_lens_modify (tame_session w) _).before fun _ _ => ?_
      rw [Prog.bind_eq, Prog.inParts_bind]
      refine Safe.bind (keeps_slot fun idx hidx => ?_)
      exact (tames_assign hN hn (tame_entry fun _ => hidx)).before fun _ _ =>
        keeps_every (tames_copyOf _) fun _ _ _ _ => trivial

/-! ## `Broadcast` -/

/-- A handle of the snapshot. -/
def Seen (h : UInt64) (seen : Fin N → Tenancy) (s : Shared N) : Prop :=
  ∃ w : Fin N, (whoOf h).toNat = w ∧ Since h w (seen w) s

/-- The snapshot. -/
theorem keeps_snapshot (hN : N < 2 ^ 32) : Keeps depth (snapshot (serve nested))
    (fun handles reg' r' => ∀ h ∈ handles, Knows r' (Seen h reg'.seen)) reg r := by
  refine Safe.learn fun s hs _ => ?_
  obtain ⟨blocks, hrepr⟩ := hs.repr
  have hlist := SparseSet.getIndicesInState_spec hN hrepr ⟨SessionState.kConnected.toNat, by decide⟩
  rw [Prog.bind_eq, Prog.wp_bind, Prog.wp_modify, SparsePool.getIndicesInState,
    Prog.wp_lens_view (b := (blocks.members SessionState.kConnected.toNat).map s.manager.handleAt)
      (by exact Prog.orFault_eq_ok.mpr hlist)]
  let found : Lasting (Ahead (N := N)) :=
    { holds := fun s' =>
        ∀ h ∈ (blocks.members SessionState.kConnected.toNat).map s.manager.handleAt,
          Seen h s.tenancy s'
      lasts := fun hA hall h hh => by
        obtain ⟨w, hw, hsince⟩ := hall h hh
        exact ⟨w, hw, hsince.ahead hA⟩ }
  refine .one hs (.refl s) (f := found) (fun h hh => ?_) fun h hh => ?_
  · obtain ⟨w, hw, rfl⟩ := List.mem_map.mp hh
    have hblock := (blocks.mem_members w ⟨SessionState.kConnected.toNat, by decide⟩).mp hw
    have hstate : s.manager.state w = SessionState.kConnected.toNat :=
      (hrepr.state w).trans (congrArg Fin.val hblock)
    exact ⟨w, toNat_whoOf hN s.manager w, since_now (by rw [hstate]; decide)⟩
  · exact (knows_cons found).imp fun s' hall => hall h hh

section Turn

variable {packet : List UInt8} {h : UInt64} {v : Fin N} {p : SharedPoolPtr}

/-- A call on the slot's session is as it should be when the entry is noted right. -/
theorem fits_session {s : Shared N} {t : Tenancy} {entry : Bool} (hs : Since h v t s)
    (he : Still v t.releases (entry = true) s) :
    Delivery.Meant ⟨h, some (s.manager.handleAt v), t, s.tenancy v, entry⟩ ↔
      Delivery.Undisturbed ⟨h, some (s.manager.handleAt v), t, s.tenancy v, entry⟩ := by
  constructor
  · rintro ⟨-, hlive, hcreated⟩
    simp only at hlive hcreated
    rcases hs.live hlive with hlt | heq
    · omega
    · exact ⟨heq ▸ hlive, congrArg Tenancy.releases heq, he.2 (congrArg Tenancy.releases heq)⟩
  · rintro ⟨hlive, hreleases, -⟩
    simp only at hlive hreleases
    obtain ⟨hhandle, -, htenancy⟩ := hs.same hreleases
    exact ⟨congrArg some hhandle, by rw [htenancy]; exact hlive, congrArg Tenancy.created htenancy⟩

/-- A call on a null pointer is as it should not be. -/
theorem fits_null {s : Shared N} {t : Tenancy} {entry : Bool}
    (he : Still v t.releases (entry = false) s) :
    Delivery.Meant ⟨h, none, t, s.tenancy v, entry⟩ ↔
      Delivery.Undisturbed ⟨h, none, t, s.tenancy v, entry⟩ := by
  constructor
  · rintro ⟨hcurrent, -, -⟩
    cases hcurrent
  · rintro ⟨-, hreleases, hentry⟩
    exact absurd (hentry.symm.trans (he.2 hreleases)) (by decide)

/-- What a thread knows that noted the entry and goes on with the pointer `p`. -/
structure Noted (h : UInt64) (v : Fin N) (p : SharedPoolPtr) (reg : Reg N) (s : Shared N) :
    Prop where
  since : Since h v (reg.seen v) s
  entry : Still v (reg.seen v).releases (reg.entry = true ↔ p = ⟨true, h⟩) s

/-- What is noted stays noted. -/
theorem Noted.ahead {s s' : Shared N} (hA : Ahead s s') (hn : Noted h v p reg s) :
    Noted h v p reg s' := ⟨hn.since.ahead hA, hn.entry.ahead hA⟩

/-- A pointer about a slot is valid when it has the slot's handle. -/
theorem isValid_about (hN : N < 2 ^ 32) (m : SessionManager N) (hp : About v p)
    (hpool : p.pool_ = true) :
    m.sessionPool_.set.isValid p.handle_ = true ↔ p = ⟨true, m.handleAt v⟩ := by
  obtain ⟨pool_, handle_⟩ := p
  simp only at hpool
  subst hpool
  rw [SparseSet.isValid_iff hN]
  constructor
  · rintro ⟨w, rfl⟩
    have hwv : w = v := Fin.ext ((toNat_whoOf hN m w).symm.trans (hp rfl))
    rw [hwv]
    rfl
  · intro he
    exact ⟨v, congrArg SharedPoolPtr.handle_ he⟩

/-- `sessionPtrs_[idx]->` reads the entry. -/
theorem keeps_entry (hN : N < 2 ^ 32) (hk : Knows r (Since h v (reg.seen v))) :
    Keeps depth (Prog.atomically do
        Prog.modify fun s : Shared N × Reg N =>
          let p := s.1.manager.sessionPtrs_ v
          (s.1, { s.2 with entry := p.pool_ && s.1.manager.sessionPool_.set.isValid p.handle_ })
        (ptrLens (serve nested) v).read id)
      (fun p reg' r' => reg'.seen = reg.seen ∧ r ≤ r' ∧ About v p ∧ Knows r' (Noted h v p reg'))
      reg r := by
  refine Safe.learn fun s hs hr => ?_
  have hsince := hk s hr
  have habout := hs.entry v
  let reg' : Reg N := { reg with
    entry := (s.manager.sessionPtrs_ v).pool_ &&
      s.manager.sessionPool_.set.isValid (s.manager.sessionPtrs_ v).handle_ }
  rw [Prog.bind_eq, Prog.wp_bind, Prog.wp_modify, Prog.wp_lens_read]
  refine .one hs (.refl s) (f := ⟨Noted h v (s.manager.sessionPtrs_ v) reg', Noted.ahead⟩)
    ⟨hsince, hsince.still fun hhandle => ?_⟩ ⟨rfl, Multiset.le_cons_self r _, habout,
      knows_cons _⟩
  rw [Bool.and_eq_true]
  constructor
  · rintro ⟨hpool, hvalid⟩
    exact hhandle ▸ (isValid_about hN s.manager habout hpool).mp hvalid
  · intro he
    have hpool : (s.manager.sessionPtrs_ v).pool_ = true := congrArg SharedPoolPtr.pool_ he
    exact ⟨hpool, (isValid_about hN s.manager habout hpool).mpr (hhandle ▸ he)⟩

/-- A check of the pointer tells whether it is the session's, if the slot was not released. -/
theorem keeps_isValid (hN : N < 2 ^ 32) (hp : About v p) (hpool : p.pool_ = true)
    (hk : Knows r (Noted h v p reg)) :
    Keeps depth (SparsePool.isValid (pool (serve nested)) p.handle_)
      (fun b reg' r' => reg' = reg ∧ r ≤ r' ∧
        Knows r' (Still v (reg.seen v).releases (b = true ↔ p = ⟨true, h⟩))) reg r := by
  refine Safe.learn_update fun s hs hr => ?_
  have hnoted := hk s hr
  rw [Prog.wp_update_ok rfl]
  refine .one hs (.refl s) (f := ⟨Still v _ _, Still.ahead⟩) (hnoted.since.still fun hhandle => ?_)
    ⟨rfl, Multiset.le_cons_self r _, knows_cons _⟩
  rw [← hhandle]
  exact isValid_about hN s.manager hp hpool

/-- A delivery is noted, and nothing else happens. -/
theorem ahead_note (s : Shared N) (reg : Reg N) (idx : Fin N)
    (current : SessionManager N → Option UInt64) : Ahead s (note h idx current (s, reg)).1 :=
  ⟨fun _ => le_rfl, fun _ => le_rfl, fun _ _ => ⟨rfl, fun hs => ⟨hs, rfl⟩⟩, fun _ _ => .inr rfl⟩

/-- The call on a null pointer. -/
theorem keeps_null {post : Fin N → Reg N → Multiset (Lasting (Ahead (N := N))) → Prop}
    (hk : Knows r (Noted h v p reg))
    (hdead : Knows r (Still v (reg.seen v).releases (p ≠ ⟨true, h⟩))) :
    Keeps depth (do Prog.modify (note h v fun _ => none); Prog.fault .nullPointer) post reg r := by
  refine Safe.bind (Safe.learn_update fun s hs hr => ?_)
  have hnoted := hk s hr
  rw [Prog.wp_update_ok rfl]
  refine .nothing ⟨hs.repr, hs.entry, fun e he => ?_⟩ (ahead_note s reg v _)
    ⟨trivial, fun _ _ _ _ => trivial⟩
  rcases List.mem_cons.mp he with rfl | he
  · refine fits_null ⟨hnoted.since.releases, fun hsame => ?_⟩
    have hne := (hdead s hr).2 hsame
    simpa using fun hentry => hne ((hnoted.entry.2 hsame).mp hentry)
  · exact hs.sent e he

/-- `->` leads to the slot, and then the entry was valid, if the slot was not released. -/
theorem keeps_derefOr (hN : N < 2 ^ 32) (hp : About v p) (hk : Knows r (Noted h v p reg)) :
    Keeps depth (derefOr (serve nested)
        (do Prog.modify (note h v fun _ => none); Prog.fault .nullPointer) p)
      (fun w reg' r' => w = v ∧ reg' = reg ∧ r ≤ r' ∧
        Knows r' (Still v (reg.seen v).releases (reg.entry = true))) reg r := by
  have hdead : ∀ {r : Multiset (Lasting (Ahead (N := N)))},
      Knows r (Still v (reg.seen v).releases (false = true ↔ p = ⟨true, h⟩)) →
      Knows r (Still v (reg.seen v).releases (p ≠ ⟨true, h⟩)) := fun hf =>
    hf.imp fun s hs => ⟨hs.1, fun hsame he => Bool.false_ne_true ((hs.2 hsame).mpr he)⟩
  cases hpool : p.pool_ with
  | false =>
      have hvalid : SharedPoolPtr.isValid (pool (serve nested)) p = .done false := by
        rw [SharedPoolPtr.isValid, hpool]
        rfl
      rw [derefOr, hvalid]
      refine keeps_null hk (hk.imp fun s hs => ⟨hs.since.releases, fun _ he => ?_⟩)
      rw [he] at hpool
      cases hpool
  | true =>
      have hvalid : SharedPoolPtr.isValid (pool (serve nested)) p =
          SparsePool.isValid (pool (serve nested)) p.handle_ := by
        rw [SharedPoolPtr.isValid, hpool]
        rfl
      rw [derefOr, hvalid]
      refine Safe.bind ((keeps_isValid hN hp hpool hk).mono (fun _ h => h) ?_)
      rintro b reg' r₁ ⟨rfl, hr₁, hb⟩
      replace hk := hk.mono hr₁
      cases b with
      | false => exact keeps_null hk (hdead hb)
      | true =>
          refine Safe.bind ((keeps_isValid hN hp hpool hk).mono (fun _ h => h) ?_)
          rintro b reg' r₂ ⟨rfl, hr₂, hb⟩
          replace hk := hk.mono hr₂
          cases b with
          | false => exact keeps_null hk (hdead hb)
          | true =>
              refine keeps_slot fun w hw => ⟨Fin.ext (hw.symm.trans (hp hpool)), rfl,
                hr₁.trans hr₂, fun s hs => ⟨(hk s hs).since.releases, fun hsame => ?_⟩⟩
              exact ((hk s hs).entry.2 hsame).mpr (((hb s hs).2 hsame).mp rfl)

/-- `SendPacket` on the session in the slot. -/
theorem keeps_send (hN : N < 2 ^ 32) (hn : ∀ idx, Tames (nested idx))
    (hk : Knows r (Since h v (reg.seen v)))
    (he : Knows r (Still v (reg.seen v).releases (reg.entry = true))) :
    Keeps depth (send (serve nested) packet h v) (fun _ reg' r' => reg'.seen = reg.seen ∧ r' = r)
      reg r := by
  refine Safe.learn fun s hs hr => ?_
  rw [Prog.bind_eq, Prog.wp_bind, Prog.wp_modify]
  refine Prog.wp_mono (fun b x hx => ?_) ((tames_sendPacket v hN hn packet).wp _)
  have hsent : Tracked (note h v (fun m => some (m.handleAt v)) (s, reg)).1 :=
    ⟨hs.repr, hs.entry, fun e hmem => (List.mem_cons.mp hmem).elim
      (fun heq => heq ▸ fits_session (hk s hr) (he s hr)) (hs.sent e)⟩
  obtain ⟨hs', hA⟩ := hx.1 hsent
  exact .nothing hs' ⟨hA.created, hA.releases, hA.same, hA.live⟩ ⟨hx.2.1, rfl⟩

/-- A turn of `Broadcast`. -/
theorem keeps_turn (hN : N < 2 ^ 32) (hn : ∀ idx, Tames (nested idx))
    (hk : Knows r (Seen h reg.seen)) :
    Keeps depth (turn (serve nested) packet h) (fun _ reg' r' => reg'.seen = reg.seen ∧ r ≤ r')
      reg r := by
  refine Safe.bind (keeps_slot fun v hv => ?_)
  have hsince : Knows r (Since h v (reg.seen v)) := hk.imp fun s ⟨w, hw, hs⟩ => by
    rwa [Fin.ext (hw.symm.trans hv)] at hs
  refine Safe.bind (keeps_every (.read Tame.refl _) fun p reg₁ hseen₁ _ => Safe.bind ?_)
  refine keeps_every (p := SharedPoolPtr.isValid (pool (serve nested)) p)
    (.ite (.read Tame.refl _) trivial) fun valid reg₂ hseen₂ _ => ?_
  replace hseen₂ : reg₂.seen = reg.seen := hseen₂.trans hseen₁
  cases valid with
  | false => exact ⟨trivial, hseen₂, le_rfl⟩
  | true =>
      rw [← hseen₂] at hsince
      refine Safe.bind (Safe.bind ((keeps_entry hN hsince).mono (fun _ h => h) ?_))
      rintro p reg₃ r₃ ⟨hseen₃, hr₃, hp, hk₃⟩
      refine (keeps_derefOr hN hp hk₃).mono (fun _ h => h) ?_
      rintro w reg' r₄ ⟨rfl, rfl, hr₄, he⟩
      have hsince' := (hk₃.mono hr₄).imp fun _ hs => hs.since
      refine Safe.bind ((keeps_send hN hn hsince' he).mono (fun _ h => h) ?_)
      rintro b reg₅ r₅ ⟨hseen₅, rfl⟩
      exact ⟨trivial, hseen₅.trans (hseen₃.trans hseen₂), hr₃.trans hr₄⟩

end Turn

/-- The loop of `Broadcast`, for handles of the snapshot. -/
theorem keeps_broadcastLoop (hN : N < 2 ^ 32) (hn : ∀ idx, Tames (nested idx))
    {packet : List UInt8} {sessionHandle : UInt64} {handles : List UInt64}
    (hk : ∀ h ∈ handles, Knows r (Seen h reg.seen)) :
    Keeps depth (broadcastLoop (turn (serve nested) packet) sessionHandle handles)
      (fun _ _ _ => True) reg r := by
  induction handles generalizing reg r with
  | nil => exact ⟨trivial, trivial⟩
  | cons h handles ih =>
      rw [broadcastLoop]
      split_ifs
      · refine Safe.bind ((keeps_turn hN hn (hk h List.mem_cons_self)).mono (fun _ h => h) ?_)
        rintro - reg' r' ⟨hseen, hr⟩
        refine ih fun h hh => ?_
        rw [hseen]
        exact (hk h (List.mem_cons_of_mem _ hh)).mono hr
      · exact ih fun h hh => hk h (List.mem_cons_of_mem _ hh)

/-- `Broadcast` with its notes, whatever the nested packet handlers do. -/
theorem keeps_broadcast (hN : N < 2 ^ 32) (hn : ∀ idx, Tames (nested idx)) (packet : List UInt8)
    (sessionHandle : UInt64) :
    Keeps depth (Crowd.broadcast (serve nested) packet sessionHandle) (fun _ _ _ => True) reg r :=
  Safe.bind ((keeps_snapshot hN).mono (fun _ h => h) fun _ _ _ hk => keeps_broadcastLoop hN hn hk)

end Safe

/-! ## all of it -/

/-- A thread's own pointers. -/
theorem tames_own (f : Shared N × Reg N → List SharedPoolPtr) :
    Tames (Prog.modify fun s : Shared N × Reg N => (s.1, { s.2 with held := f s })) :=
  tames_modify fun _ => ⟨fun h => ⟨h, .refl _⟩, rfl, rfl⟩

/-- Every operation keeps everything tracked. -/
theorem sound (hN : N < 2 ^ 32) :
    (Discipline.knowing (client N depth) Tracked Ahead).Sound anything := fun op l r _ _ => by
  have hn := tames_nested hN depth
  have htames : ∀ {p : Prog (Shared N × Reg N) Kernel Fault Unit}, Tames p →
      Keeps depth p.inParts (fun _ _ _ => True) ((client N depth).enter op l) r := fun hp =>
    keeps_every hp fun _ _ _ _ => trivial
  cases op with
  | createSession =>
      show Keeps depth ((createSession (port N depth)).bind keep).inParts (fun _ _ _ => True) _ r
      rw [Prog.inParts_bind]
      exact Safe.bind ((keeps_createSession hN hn).mono (fun _ h => h) fun p _ _ _ =>
        keeps_every (tames_own _) fun _ _ _ _ => trivial)
  | connectSession handle =>
      exact htames ((tames_moveToState hN handle (by decide)).bind fun _ => trivial)
  | disconnectSession handle => exact htames (tames_disconnectSession hN hn handle)
  | getSession handle => exact htames ((tames_getSession handle).bind fun _ => tames_own _)
  | copy i =>
      exact htames ((tames_read _).bind fun p => (tames_copy p).bind fun _ => tames_own _)
  | drop i =>
      exact htames ((tames_read _).bind fun p => (tames_own _).bind fun _ => tames_destroy hN hn p)
  | connect i =>
      exact htames ((tames_read _).bind fun p => (tames_deref p).bind fun w =>
        (tames_connect w hN hn).bind fun _ => trivial)
  | disconnect i =>
      exact htames ((tames_read _).bind fun p => (tames_deref p).bind fun w =>
        (tames_disconnect w hN hn).bind fun _ => trivial)
  | clear i =>
      exact htames ((tames_read _).bind fun p => (tames_deref p).bind fun w =>
        (tames_clear w hN hn).bind fun _ => trivial)
  | take w i =>
      refine htames (Tames.bind ((tames_lens_read _ id).bind fun p => Tames.bind
        (tames_modify fun s => tame_ovPtr w i s _) fun _ => trivial) fun _ => tames_own _)
  | broadcast packet sessionHandle =>
      exact Safe.bind ((keeps_broadcast hN hn packet sessionHandle).mono (fun _ h => h)
        fun _ _ _ _ => ⟨trivial, trivial⟩)

/-- The manager as constructed, with nothing noted. -/
theorem tracked_new (N : Nat) : Tracked (⟨.new N, fun _ => ⟨0, false, 0⟩, []⟩ : Shared N) where
  repr := ⟨_, SparseSet.repr_new (by decide)⟩
  entry w := about_null w
  sent _ he := absurd he List.not_mem_nil

/-- **`Broadcast` reaches the session that it meant exactly while the slot is left alone.**
A `SendPacket` of `Broadcast` is made on a session with the handle in the snapshot, the same
that had the slot then and not released, if and only if the last reference to it was not
dropped before the snapshot, no release of the slot began or ended since, and the entry of the
array was valid when it was followed. -/
theorem delivered_iff [Fintype ι] (hN : N < 2 ^ 32) (depth : Nat) (c : Config (client N depth) ι)
    (hc : Reachable c) : ∀ e ∈ c.shared.sent,
      (e.current = some e.handle ∧ e.after.live = true ∧ e.after.created = e.before.created) ↔
        (e.before.live = true ∧ e.after.releases = e.before.releases ∧ e.entry = true) := by
  have hgood : Good (Discipline.knowing (client N depth) Tracked Ahead) anything
      (start N depth : Config (client N depth) ι) fun _ => 0 := by
    refine ⟨⟨tracked_new N, fun f hf => ?_⟩, fun _ => trivial⟩
    simp at hf
  obtain ⟨-, R, hR⟩ := hgood.run (sound hN) trivial hc
  exact hR.inv.1.sent

/-- Everything that the kernel is asked for grants. -/
def grants : ∀ β : Type, Shared N × Reg N → Kernel β → β
  | _, _, .wsaRecv _ | _, _, .wsaSend _ => .ok
  | _, _, .disconnectEx => ⟨true, 0⟩

instance (β : Type) (s : Shared N × Reg N) (q : Kernel β) :
    Decidable (anything β s q (grants β s q)) := isTrue trivial

instance (op : (client N depth).Op) (l : List SharedPoolPtr) :
    Decidable ((client N depth).can op l) := isTrue trivial

/-- Two threads have a session each; the first begins a broadcast of a header for its own
session, and is about to send to the other's. -/
def twoSessions (depth : Nat) (a b : ι) : List (ι × Config.Move (client N depth)) :=
  [(a, .whole .createSession), (a, .whole (.connect 0)), (b, .whole .createSession),
    (b, .whole (.connect 0)), (a, .start (.broadcast [4, 0, 2, 0] 0)), (a, .acts 4)]

/-- The second thread disconnects its session, in the slot `w`. -/
def endSession (depth : Nat) (b : ι) : List (ι × Config.Move (client N depth)) :=
  [(b, .whole (.disconnect 0)), (b, .whole (.clear 0))]

/-- It drops all pointers to the session; then a session is created. -/
def replaceSession (depth : Nat) (b : ι) (w : Fin N) : List (ι × Config.Move (client N depth)) :=
  [(b, .whole (.take w .read)),
    (b, .whole (.take w .write)), (b, .whole (.take w .disconnect)), (b, .whole (.drop 0)),
    (b, .whole (.drop 0)), (b, .whole (.drop 0)), (b, .whole (.drop 0)), (b, .whole .createSession)]

theorem delivered_iff_same : ∃ c : Config (client 2 1) (Fin 2), Reachable c ∧
    ⟨1, some 1, ⟨1, true, 0⟩, ⟨1, true, 0⟩, true⟩ ∈ c.shared.sent ∧
    ((some 1 = some (1 : UInt64) ∧ true = true ∧ 1 = 1) ↔ (true = true ∧ 0 = 0 ∧ true = true)) := by
  have hplay : ((Config.play anything grants (fun _ => True)
      (twoSessions 1 0 1 ++ [(0, .acts 5)]) (start 2 1 : Config (client 2 1) (Fin 2))).map
        fun c => c.shared.sent) = some [⟨1, some 1, ⟨1, true, 0⟩, ⟨1, true, 0⟩, true⟩] := by
    decide +kernel
  obtain ⟨c, hc, hsent⟩ := Option.map_eq_some_iff.mp hplay
  have hreach : Reachable c := (Config.Reach.play .refl trivial hc).1
  have hmem : ⟨1, some 1, ⟨1, true, 0⟩, ⟨1, true, 0⟩, true⟩ ∈ c.shared.sent := by
    simp only [hsent, List.mem_singleton]
  exact ⟨c, hreach, hmem, delivered_iff (by decide) 1 c hreach _ hmem⟩

/-- The slot is released and taken again between the check of `Broadcast` and its `SendPacket`:
the packet is queued on the next session, which is not even connected. -/
theorem delivered_later : ∃ c : Config (client 2 1) (Fin 2), Reachable c ∧
    (∃ e ∈ c.shared.sent, e.current = some 4294967297 ∧ e.handle = 1 ∧
      e.before.created < e.after.created) ∧
    c.shared.manager.state 1 = SessionState.kPending.toNat ∧
    (c.shared.manager.session 1).writeOv_.buffer_.slice 0 4 = [4, 0, 2, 0] := by
  have hplay : ((Config.play anything grants (fun _ => True)
      (twoSessions 1 0 1 ++ (endSession 1 1 ++ (replaceSession 1 1 1 ++ [(0, .acts 5)])))
      (start 2 1 : Config (client 2 1) (Fin 2))).map fun c => (c.shared.sent,
        c.shared.manager.state 1, (c.shared.manager.session 1).writeOv_.buffer_.slice 0 4)) =
      some ([⟨1, some 4294967297, ⟨1, true, 0⟩, ⟨2, true, 2⟩, true⟩], 1, [4, 0, 2, 0]) := by
    decide +kernel
  obtain ⟨c, hc, hvals⟩ := Option.map_eq_some_iff.mp hplay
  simp only [Prod.mk.injEq] at hvals
  obtain ⟨hsent, hstate, hqueue⟩ := hvals
  refine ⟨c, (Config.Reach.play .refl trivial hc).1,
    ⟨⟨1, some 4294967297, ⟨1, true, 0⟩, ⟨2, true, 2⟩, true⟩, ?_, rfl, rfl, by decide⟩, hstate,
    hqueue⟩
  simp only [hsent, List.mem_singleton]

end Crowd

end SessionManager

end ServerStudy
