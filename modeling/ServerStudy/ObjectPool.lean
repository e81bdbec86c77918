import ServerStudy.SparsePool.Exact
import ServerStudy.Threads.Every

/-!
# ServerStudy.ObjectPool

`ObjectPool<T, N, isLazy>` (`Network/Common/Pool/ObjectPool.hpp`), the memory of
a `SparsePool`, by what is done to the objects in it: a lazy pool is meant to
construct an object when its slot is acquired and to destroy it when the slot is
released.

`Release` leaves that to `deleter_` when there is one, and `SparsePool`'s
constructor always installs one, a wrapper that calls the user's deleter if any.

* `Safe.also` is used with `Ledger`: a slot is acquired and released by turns;
* `finalised_iff` — and is cleaned up only where there is nothing to do.
-/

namespace ServerStudy

/-! ## the objects -/

/-- What is done to an object: `new (obj) T(..)`, `obj->Init(..)`, `obj->~T()`,
`obj->Clear()`. -/
inductive Effect where
  | construct
  | init
  | destroy
  | clear
  deriving DecidableEq

/-- Of a class, whether `hasInit` and `hasClear` hold. -/
structure Members where
  hasInit : Bool
  hasClear : Bool

/-- `ISparsePool<T>::Slot` has neither `Init` nor `Clear`, whatever `T` has. -/
def Members.slot (_T : Members) : Members := ⟨false, false⟩

/-- `ObjectPool<T, N, isLazy>`; of `deleter_` what it does to the object, unless
it is empty. -/
structure ObjectPool where
  T : Members
  isLazy : Bool
  deleter_ : Option (List Effect)

namespace ObjectPool

/-- The constructor, at each object. -/
def new (O : ObjectPool) : List Effect := if O.isLazy then [] else [.construct]

/-- `ObjectPool::Acquire`. -/
def acquire (O : ObjectPool) : List Effect :=
  if O.isLazy then [.construct] else if O.T.hasInit then [.init] else []

/-- The clean-up built into `ObjectPool::Release`. -/
def cleanUp (O : ObjectPool) : List Effect :=
  if O.isLazy then [.destroy] else if O.T.hasClear then [.clear] else []

/-- `ObjectPool::Release`. -/
def release (O : ObjectPool) : List Effect :=
  match O.deleter_ with
  | some deleter => deleter
  | none => O.cleanUp

end ObjectPool

/-- `pool_` as `SparsePool`'s constructor makes it: the wrapper calls `deleter`
if there is one, and is there in any case. -/
def SparsePool.pool_ (T : Members) (isLazy : Bool) (deleter : Option (List Effect)) :
    ObjectPool where
  T := T.slot
  isLazy := isLazy
  deleter_ := some (deleter.getD [])

/-! ## what happens to a slot -/

/-- A call of `pool_` for a slot. -/
inductive Call where
  | acquire
  | release
  deriving DecidableEq

/-- A call, and what it did to the object. -/
structure Entry where
  call : Call
  effects : List Effect
  deriving DecidableEq

/-- Of each slot, the calls so far. -/
abbrev Journal (N : Nat) : Type := Fin N → List Entry

/-- `a` and `b` by turns, starting with `a`. -/
def alternates {α : Type} [DecidableEq α] : α → α → List α → Bool
  | _, _, [] => true
  | a, b, x :: l => x == a && alternates b a l

/-- Constructions and destructions. -/
def Effect.isLife : Effect → Bool
  | .construct | .destroy => true
  | .init | .clear => false

/-- The life of the objects in a slot. -/
def ObjectPool.life (O : ObjectPool) (l : List Entry) : List Effect :=
  (O.new ++ l.flatMap Entry.effects).filter Effect.isLife

/-- What the pool is meant to do with a slot: clean it up once for each release,
before it is acquired again. -/
structure Finalised (O : ObjectPool) (l : List Entry) : Prop where
  paired : alternates .acquire .release (l.map Entry.call) = true
  cleaned : ∀ e ∈ l, e.call = .release → e.effects = O.cleanUp
  lived : alternates .construct .destroy (O.life l) = true

/-- No release of the slot so far. -/
def Unreleased (l : List Entry) : Prop := ∀ e ∈ l, e.call ≠ .release

/-! ## the programs -/

namespace ObjectPool

open RefCount

variable {V : Type} {N K n : Nat} (O : ObjectPool)

/-- The world of a pool that keeps a journal; `V` is what else there is. -/
abbrev World (V : Type) (N K : Nat) : Type := RefCount.World (Journal N × V) N K

/-- A call, written down. -/
def record (idx : Nat) (e : Entry) (j : Journal N) : Journal N :=
  fun w => if (w : Nat) = idx then j w ++ [e] else j w

/-- `new (obj) Slot(..)` begins `handle_` and `refCount_` anew.  Of a slot that
was never constructed nobody reads them. -/
def place (idx : Nat) (p : Pool N K) : Pool N K :=
  if O.isLazy then
    { p with
      handle_ := fun w => if (w : Nat) = idx then kInvalidHandle else p.handle_ w
      refCount_ := fun w => if (w : Nat) = idx then 0 else p.refCount_ w }
  else p

/-- The section under `mutex_` of `SparsePool::Acquire`, with `pool_.Acquire`. -/
def popLocked (state : Nat) (s : World V N K) : Except Fault ((UInt64 × Bool) × World V N K) :=
  (SparsePool.popLocked state s.1.pool).map fun r =>
    let idx := (whoOf r.1.1).toNat
    if r.1.2 then
      (r.1, { s.1 with
        pool := O.place idx r.2, rest := (record idx ⟨.acquire, O.acquire⟩ s.1.rest.1, s.1.rest.2) }, s.2)
    else (r.1, { s.1 with pool := r.2 }, s.2)

/-- The pool: `deleter` is `pool_.Release`, and `postReleaseFunc_` does what it
likes elsewhere. -/
def port (postRelease : V → V) : PoolPort (World V N K) NoQuery N K :=
  RefCount.port (fun idx u => (record idx ⟨.release, O.release⟩ u.1, u.2))
    fun u => (u.1, postRelease u.2)

/-- `SparsePool::Acquire`. -/
def acquirePtr (postRelease : V → V) (state : Nat) :
    Prog (World V N K) NoQuery Fault SharedPoolPtr := do
  let (handle, valid) ← Prog.update (O.popLocked state)
  if !valid then
    return .null
  (O.port postRelease).pool.update (SparsePool.setHandle (whoOf handle).toNat handle)
  SharedPoolPtr.construct (O.port postRelease) handle

/-- The code of each operation. -/
def prog (postRelease : V → V) : PtrOp n → Prog (World V N K) NoQuery Fault Unit
  | .acquire _ state => do
      let p ← O.acquirePtr postRelease state
      thisLens.modify fun _ => p
  | op => RefCount.prog (O.port postRelease) op

/-- Threads with `n` pointer variables each. -/
def client (postRelease : V → V) (n : Nat) :
    Client (PoolWorld (Journal N × V) N K) (PtrVars n) NoQuery Fault :=
  { RefCount.client (O.port (N := N) (K := K) postRelease) n with prog := O.prog postRelease }

/-- A new pool, and threads without pointers. -/
def initial {ι : Type} (postRelease : V → V) (v : V) :
    Config (O.client (N := N) (K := K) postRelease n) ι where
  shared := ⟨.new N K, [], (fun _ => [], v)⟩
  thread _ := ⟨fun _ => none, none⟩

theorem prog_eq (postRelease : V → V) {op : PtrOp n} (hop : ∀ i state, op ≠ .acquire i state) :
    O.prog (N := N) (K := K) postRelease op = RefCount.prog (O.port postRelease) op := by
  cases op with
  | acquire i state => exact absurd rfl (hop i state)
  | _ => rfl

/-! ## what an action may do -/

/-- What an action of a thread may do to the shared state, but for the locked
section of `Acquire`. -/
inductive Acts (s s' : PoolWorld (Journal N × V) N K) : Prop where
  | quiet : s'.pool.set = s.pool.set → s'.deleted = s.deleted → s'.rest.1 = s.rest.1 → Acts s s'
  | push (h : UInt64) (b : Bool) : s.pool.set.push h = some (b, s'.pool.set) →
      s'.deleted = s.deleted → s'.rest.1 = s.rest.1 → Acts s s'
  | release (h : UInt64) : s'.pool.set = s.pool.set →
      s'.deleted = s.deleted ++ [handleOfSlot s (whoOf h).toNat] →
      s'.rest.1 = record (whoOf h).toNat ⟨.release, O.release⟩ s.rest.1 → Acts s s'

/-- Every action of the program does that. -/
abbrev Orderly {β : Type} (O : ObjectPool) (p : Prog (World V N K) NoQuery Fault β) : Prop :=
  p.Every (noAnswers _) fun x x' => O.Acts x.1 x'.1

variable {O} {postRelease : V → V} {β : Type}

/-- Actions on the registers. -/
theorem orderly_local {f : World V N K → Except Fault (β × World V N K)}
    (hf : ∀ s b s', f s = .ok (b, s') → s'.1 = s.1) : O.Orderly (Prog.update f) :=
  Prog.Every.update fun s b s' h => by
    rw [hf s b s' h]
    exact .quiet rfl rfl rfl

theorem orderly_modify {l : Lens (World V N K) SharedPoolPtr} (hl : ∀ p s, (l.set p s).1 = s.1)
    (f : SharedPoolPtr → SharedPoolPtr) : O.Orderly (l.modify f) :=
  orderly_local fun s b s' h => by
    cases h
    exact hl _ _

theorem orderly_read {α : Type} (l : Lens (World V N K) α) (f : α → β) : O.Orderly (l.read f) :=
  orderly_local fun s b s' h => by
    cases h
    rfl

/-- Actions on the counts and handles of slots. -/
theorem orderly_slot {f : Pool N K → Except Fault (β × Pool N K)}
    (hf : ∀ p b p', f p = .ok (b, p') → p'.set = p.set) :
    O.Orderly ((O.port postRelease).pool.update f) :=
  Prog.Every.update fun s b s' h => by
    simp only [port, RefCount.port, poolLens] at h
    cases hp : f s.1.pool with
    | error e =>
        rw [hp] at h
        cases h
    | ok r =>
        rw [hp] at h
        cases h
        exact .quiet (hf _ _ _ hp) rfl rfl

theorem orderly_push (h : UInt64) :
    O.Orderly (N := N) (K := K) ((O.port postRelease).pool.update
      (SparsePool.onSet fun s => s.push h)) :=
  Prog.Every.update fun s b s' hs => by
    simp only [port, RefCount.port, poolLens, SparsePool.onSet] at hs
    cases hp : s.1.pool.set.push h with
    | none =>
        rw [hp] at hs
        cases hs
    | some r =>
        rw [hp] at hs
        cases hs
        exact .push h r.1 hp rfl rfl

theorem orderly_isValid (h : UInt64) :
    O.Orderly (N := N) (K := K) (SparsePool.isValid (O.port postRelease) h) := orderly_read _ _

theorem orderly_addRef (h : UInt64) :
    O.Orderly (N := N) (K := K) (SparsePool.addRef (O.port postRelease) h) := by
  refine Prog.Every.bind (orderly_isValid h) fun b => Prog.Every.ite trivial ?_
  exact Prog.Every.bind (orderly_slot fun p b p' => SparsePool.fetchAdd_set) fun _ => trivial

theorem orderly_releaseRef (h : UInt64) :
    O.Orderly (N := N) (K := K) (SparsePool.releaseRef (O.port postRelease) h) := by
  refine Prog.Every.bind (orderly_isValid h) fun b => Prog.Every.ite trivial ?_
  refine Prog.Every.bind (orderly_slot fun p b p' => SparsePool.fetchSub_set) fun n => Prog.Every.ite ?_ trivial
  refine Prog.Every.bind (Prog.Every.update fun s b s' hs => ?_) fun _ => ?_
  · cases hs
    exact .release h rfl rfl rfl
  refine Prog.Every.bind (orderly_push h) fun _ => ?_
  refine Prog.Every.bind (Prog.Every.update fun s b s' hs => ?_) fun _ => trivial
  cases hs
  exact .quiet rfl rfl rfl

/-- A reference is counted or dropped, or the pointer has no pool. -/
theorem orderly_if {c : Bool} {p : Prog (World V N K) NoQuery Fault Bool}
    {k : Prog (World V N K) NoQuery Fault β} (hp : O.Orderly p) (hk : O.Orderly k) :
    O.Orderly (if c = true then p.bind fun _ => k else k) :=
  Prog.Every.ite (Prog.Every.bind hp fun _ => hk) hk

/-- The operations but for `Acquire`. -/
theorem orderly_prog (op : PtrOp n) (hop : ∀ i state, op ≠ .acquire i state) :
    O.Orderly (N := N) (K := K) (RefCount.prog (O.port postRelease) op) := by
  have hthis : ∀ f, O.Orderly ((thisLens : Lens (World V N K) SharedPoolPtr).modify f) :=
    orderly_modify fun _ _ => rfl
  have hother : ∀ f, O.Orderly ((otherLens : Lens (World V N K) SharedPoolPtr).modify f) :=
    orderly_modify fun _ _ => rfl
  cases op with
  | acquire i state => exact absurd rfl (hop i state)
  | null i => exact hthis fun _ => .null
  | copy i j =>
      refine Prog.Every.bind (orderly_read _ _) fun p => ?_
      refine Prog.Every.bind (orderly_if (orderly_addRef _) trivial) fun _ => hthis _
  | move i j =>
      refine Prog.Every.bind ?_ fun _ => hthis _
      exact Prog.Every.bind (orderly_read _ _) fun p => Prog.Every.bind (hother _) fun _ => trivial
  | copyAssign i j =>
      refine Prog.Every.ite trivial ?_
      refine Prog.Every.bind (orderly_read _ _) fun current => ?_
      refine Prog.Every.bind (orderly_read _ _) fun p => ?_
      refine Prog.Every.bind (hthis _) fun _ => ?_
      exact orderly_if (orderly_addRef _) (orderly_if (orderly_releaseRef _) trivial)
  | moveAssign i j =>
      refine Prog.Every.ite trivial ?_
      refine Prog.Every.bind (orderly_read _ _) fun current => ?_
      refine orderly_if (orderly_releaseRef _) ?_
      refine Prog.Every.bind (orderly_read _ _) fun p => ?_
      exact Prog.Every.bind (hthis _) fun _ => hother _
  | reset i =>
      refine Prog.Every.bind (Prog.Every.bind (orderly_read _ _) fun p => ?_) fun _ => trivial
      refine Prog.Every.ite ?_ trivial
      refine Prog.Every.bind (orderly_isValid _) fun b => Prog.Every.ite ?_ trivial
      refine Prog.Every.bind (orderly_releaseRef _) fun b => Prog.Every.ite trivial ?_
      exact Prog.Every.bind (hthis _) fun _ => trivial
  | destroy i =>
      refine Prog.Every.bind (orderly_read _ _) fun p => Prog.Every.ite ?_ trivial
      refine Prog.Every.bind (orderly_isValid _) fun b => Prog.Every.ite ?_ trivial
      exact Prog.Every.bind (orderly_releaseRef _) fun _ => trivial

/-- What `Acquire` does after its locked section. -/
theorem orderly_acquired (h : UInt64) :
    O.Orderly (N := N) (K := K) (((O.port postRelease).pool.update
      (SparsePool.setHandle (whoOf h).toNat h)).bind fun _ =>
        SharedPoolPtr.construct (O.port postRelease) h) := by
  refine Prog.Every.bind (orderly_slot fun p b p' => SparsePool.setHandle_set) fun _ => ?_
  exact Prog.Every.bind (orderly_addRef h) fun _ => trivial

/-! ## by turns -/

theorem alternates_concat {α : Type} [DecidableEq α] (a b x : α) (l : List α) :
    alternates a b (l ++ [x]) = (alternates a b l && (x == if l.length % 2 = 0 then a else b)) := by
  induction l generalizing a b with
  | nil => simp [alternates]
  | cons y l ih =>
      have hpar : (if (y :: l).length % 2 = 0 then a else b) = if l.length % 2 = 0 then b else a := by
        rw [List.length_cons]
        split_ifs <;> first | rfl | omega
      rw [List.cons_append, alternates, ih, alternates, hpar, Bool.and_assoc]

@[simp] theorem record_self (w : Fin N) (e : Entry) (j : Journal N) :
    record w e j w = j w ++ [e] := if_pos rfl

theorem record_other {v : Fin N} {idx : Nat} (h : (v : Nat) ≠ idx) (e : Entry) (j : Journal N) :
    record idx e j v = j v := if_neg h

/-- The slot is in use, and its object not released yet. -/
def Open (s : PoolWorld (Journal N × V) N K) (w : Fin N) : Prop :=
  s.state w ≠ 0 ∧ s.handleAt w ∉ s.deleted

/-- Every slot is acquired and released by turns. -/
def Turns (s : PoolWorld (Journal N × V) N K) : Prop :=
  ∀ w, alternates .acquire .release ((s.rest.1 w).map Entry.call) = true ∧
    ((s.rest.1 w).length % 2 = 1 ↔ Open s w)

variable {s s' : PoolWorld (Journal N × V) N K} {R r F : Multiset Tok} {w : Fin N}

theorem mem_deleted (hN : N < 2 ^ 32) (hi : PoolInv s R) (w : Fin N) :
    s.handleAt w ∈ s.deleted ↔ .dead (s.handleAt w) ∈ R := by
  rw [← List.count_pos_iff, hi.deletedLive _ (PoolInv.not_past hN s w), Multiset.count_pos]

/-- One slot takes its turn, and nothing else changes. -/
theorem Turns.turn (h : Turns s) (w : Fin N) (e : Entry)
    (hcall : (e.call = .acquire ∧ ¬ Open s w ∧ Open s' w) ∨
      (e.call = .release ∧ Open s w ∧ ¬ Open s' w))
    (hjournal : s'.rest.1 = record w e s.rest.1) (hother : ∀ v, v ≠ w → (Open s' v ↔ Open s v)) :
    Turns s' := by
  intro v
  rw [hjournal]
  by_cases hv : v = w
  · subst hv
    obtain ⟨halt, hopen⟩ := h v
    rw [record_self, List.map_append, List.map_singleton, alternates_concat, halt, List.length_map,
      List.length_append, List.length_singleton, Bool.true_and]
    rcases hcall with ⟨he, hno, hyes⟩ | ⟨he, hyes, hno⟩
    · have hlen : (s.rest.1 v).length % 2 = 0 := by
        have hne := mt hopen.mp hno
        omega
      refine ⟨by rw [he, if_pos hlen]; rfl, iff_of_true (by omega) hyes⟩
    · have hlen := hopen.mpr hyes
      refine ⟨by rw [he, if_neg (by omega)]; rfl, iff_of_false (by omega) hno⟩
  · rw [record_other fun he => hv (Fin.ext he), hother v hv]
    exact h v

/-- Nothing is written down. -/
theorem Turns.same (h : Turns s) (hjournal : s'.rest.1 = s.rest.1)
    (hopen : ∀ v, Open s' v ↔ Open s v) : Turns s' := by
  intro v
  rw [hjournal, hopen v]
  exact h v

/-- The slot that the deleter is called for, if there is one. -/
theorem who_handleOfSlot (hN : N < 2 ^ 32) (s : PoolWorld (Journal N × V) N K) (h : UInt64)
    (w : Fin N) :
    (whoOf (handleOfSlot s (whoOf h).toNat)).toNat = w ↔ (w : Nat) = (whoOf h).toNat := by
  by_cases hlt : (whoOf h).toNat < N
  · have hspec := SparseSet.getHandle_spec hN s.pool.set ⟨_, hlt⟩
    rw [handleOfSlot, hspec, Option.getD_some, SparseSet.toNat_whoOf_handleAt hN]
    exact eq_comm
  · have hnone : s.pool.set.getHandle (UInt32.ofNat (whoOf h).toNat) = none := by
      rw [UInt32.ofNat_toNat]
      simp only [SparseSet.getHandle, FixedArray.get?, hlt, dif_neg, not_false_eq_true]
      rfl
    have hwho : (whoOf kInvalidHandle).toNat = 2 ^ 32 - 1 := by decide
    rw [handleOfSlot, hnone, Option.getD_none, hwho]
    omega

theorem handleOfSlot_eq (hN : N < 2 ^ 32) {h : UInt64}
    (hw : handleOfSlot s (whoOf h).toNat = s.handleAt w) : (w : Nat) = (whoOf h).toNat := by
  rw [← who_handleOfSlot hN s, hw]
  exact SparseSet.toNat_whoOf_handleAt hN s.pool.set w

/-- A handle pushed was released, and its slot is idle. -/
theorem Turns.push (hN : N < 2 ^ 32) (hK : 0 < K) (hfresh : Fresh s) (hi : PoolInv s (r + F))
    (h : Turns s) {x : UInt64} {b : Bool} (hpush : s.pool.set.push x = some (b, s'.pool.set))
    (hdeleted : s'.deleted = s.deleted) (hjournal : s'.rest.1 = s.rest.1) (hc : Changes s s' r) :
    Turns s' := by
  refine h.same hjournal fun v => ?_
  cases hv : s.pool.set.isValid x with
  | false =>
      rw [SparseSet.push_refused _ hv, Option.some.injEq, Prod.mk.injEq] at hpush
      rw [Open, Open, PoolWorld.state, PoolWorld.handleAt, ← hpush.2, hdeleted]
      rfl
  | true =>
      obtain ⟨w, rfl⟩ := (SparseSet.isValid_iff hN _ _).mp hv
      obtain ⟨b, hr⟩ := hi.repr
      obtain ⟨set', hset', hL⟩ := SparseSet.push_spec hN hr hK w
      rw [hset', Option.some.injEq, Prod.mk.injEq] at hpush
      obtain ⟨-, rfl⟩ := hpush
      have hgen : s'.gen w ≠ s.gen w := by
        have hg := congrFun hL.2 w
        rw [Function.update_self] at hg
        intro he
        rw [PoolWorld.gen, hg, PoolWorld.gen] at he
        have hnat := congrArg UInt32.toNat he
        rw [UInt32.toNat_add] at hnat
        have hlt := (s.pool.set.gen w).toNat_lt
        have hone : (1 : UInt32).toNat = 1 := rfl
        omega
      have hdead := hc.pushes w hgen
      have hcount : 0 < (r + F).count (.dead (s.handleAt w)) :=
        Multiset.count_pos.mpr (Multiset.mem_add.mpr (.inl hdead))
      have hrel := hi.releases w
      have hw := hfresh w
      have hp : Pushed s { s with pool := { s.pool with set := s'.pool.set } } w :=
        .of_leads hr hK hL (by omega) rfl rfl
      by_cases hvw : v = w
      · subst hvw
        refine iff_of_false (fun ho => ho.1 hp.state_self) fun ho => ho.2 ?_
        exact (mem_deleted hN hi v).mpr (Multiset.mem_add.mpr (.inl hdead))
      · have hstate : s'.state v = s.state v := hp.state_other v hvw
        have hhandle : s'.handleAt v = s.handleAt v := hp.handleAt_other hvw
        rw [Open, Open, hstate, hhandle, hdeleted]

/-- **Step lemma**: what an action does keeps the turns. -/
theorem Turns.acts (hN : N < 2 ^ 32) (hK : 0 < K) (hfresh : Fresh s') (hi : PoolInv s (r + F))
    (h : Turns s) (hacts : O.Acts s s') (hc : Changes s s' r) : Turns s' := by
  cases hacts with
  | quiet hset hdeleted hjournal =>
      refine h.same hjournal fun v => ?_
      rw [Open, Open, PoolWorld.state, PoolWorld.handleAt, hset, hdeleted]
      rfl
  | push x b hpush hdeleted hjournal =>
      have hfresh' : Fresh s := fun w => by
        have hw := hfresh w
        rwa [PoolWorld.releases, hdeleted] at hw
      exact h.push hN hK hfresh' hi hpush hdeleted hjournal hc
  | release x hset hdeleted hjournal =>
      have hmem : .last (handleOfSlot s (whoOf x).toNat) ∈ r := by
        refine hc.deletes _ ?_
        rw [hdeleted, List.count_append, List.count_singleton_self]
        omega
      have hpos : 0 < (r + F).count (.last (handleOfSlot s (whoOf x).toNat)) :=
        Multiset.count_pos.mpr (Multiset.mem_add.mpr (.inl hmem))
      obtain ⟨w, hw⟩ := hi.current (handleOfSlot s (whoOf x).toNat) (by
        simp only [busy]
        omega)
      rw [hw] at hpos hdeleted
      rw [← handleOfSlot_eq hN hw] at hjournal
      have hone := hi.busy_le_one (s.handleAt w)
      simp only [busy] at hone
      have hstate : ∀ v, s'.state v = s.state v := fun v => by
        rw [PoolWorld.state, hset, PoolWorld.state]
      have hhandle : ∀ v, s'.handleAt v = s.handleAt v := fun v => by
        rw [PoolWorld.handleAt, hset, PoolWorld.handleAt]
      refine h.turn w _ (.inr ⟨rfl, ⟨hi.state_ne (by simp only [busy]; omega), ?_⟩, ?_⟩) hjournal
        fun v hv => ?_
      · rw [mem_deleted hN hi, ← Multiset.count_pos]
        omega
      · rw [Open, hhandle, hdeleted]
        simp
      · have hne := PoolInv.handleAt_ne hN s hv
        rw [Open, Open, hstate, hhandle, hdeleted]
        simp [hne]

/-! ## threads -/

/-- Reference counting, and turns. -/
abbrev discipline (O : ObjectPool) (postRelease : V → V) (N K n : Nat) :
    Discipline (O.client (N := N) (K := K) postRelease n) Tok :=
  (RefCount.discipline (O.port postRelease)).also Turns (O.prog postRelease)

/-- Programs other than the locked section of `Acquire`. -/
theorem safe_of_safely (hN : N < 2 ^ 32) (hK : 0 < K) {D : Multiset Tok → Prop}
    {p : Prog (World V N K) NoQuery Fault β} {post : β → PtrReg → Multiset Tok → Prop}
    {reg : PtrReg} (hp : O.Orderly p)
    (h : Safe (RefCount.discipline (n := n) (O.port postRelease)) (noAnswers _) D p post reg r) :
    Safe (discipline O postRelease N K n) (noAnswers _) D p post reg r :=
  h.also (fun _ _ _ _ _ hg hi hturns hacts hc _ => hturns.acts hN hK hg hi hacts hc) hp

/-- Where nothing is counted, the new count changes nothing. -/
theorem place_refCount {p : Pool N K} (hw : p.refCount_ w = 0) :
    (O.place w p).refCount_ = p.refCount_ := by
  unfold place
  split_ifs
  · funext v
    by_cases hv : (v : Nat) = w
    · rw [show v = w from Fin.ext hv, hw]
      exact if_pos rfl
    · exact if_neg hv
  · rfl

theorem place_set (idx : Nat) (p : Pool N K) : (O.place idx p).set = p.set := by
  unfold place
  split_ifs <;> rfl

/-- The locked section, with the construction in it. -/
theorem safe_popLocked (hN : N < 2 ^ 32) (hK : 0 < K) {B : Multiset Tok}
    {d : Option SharedPoolPtr} {state : Nat} (hstate : 1 ≤ state)
    {post : UInt64 × Bool → PtrReg → Multiset Tok → Prop} {reg : PtrReg} (hB : Keeps B d r)
    (hnone : ∀ x, post (x, false) reg r) (hsome : ∀ x, post (x, true) reg (.fresh x ::ₘ r)) :
    Safe (discipline O postRelease N K n) (noAnswers _) (Keeps B d)
      (Prog.update (O.popLocked state)) post reg r := by
  refine Safe.update hB fun s F _ hi => ?_
  obtain hpop | ⟨w, set', hpop, hp, hi'⟩ := popLocked_cases hN hK hstate hi.1
  · refine ⟨(kInvalidHandle, false), s, reg, ?_, fun _ => ⟨.of_eq rfl rfl, r, hi, hB, hnone _⟩⟩
    simp only [popLocked, hpop, Except.map]
    rfl
  · have hwho := SparseSet.toNat_whoOf_handleAt hN s.pool.set w
    let s₁ : PoolWorld (Journal N × V) N K := { s with pool := { s.pool with set := set' } }
    let s' : PoolWorld (Journal N × V) N K := { s with
      pool := O.place w s₁.pool, rest := (record w ⟨.acquire, O.acquire⟩ s.rest.1, s.rest.2) }
    have hset : s'.pool.set = s₁.pool.set := place_set _ _
    have hcount : s'.pool.refCount_ = s₁.pool.refCount_ := by
      refine place_refCount ?_
      have hcounted := hi.1.counted w
      rw [(hi.1.idle w hp.idle).1] at hcounted
      exact hcounted
    have hp' : Popped s s' w := by
      refine ⟨hp.idle, ?_, fun v hv => ?_, ?_, hcount, rfl⟩
      · rw [PoolWorld.state, hset]
        exact hp.state_self
      · rw [PoolWorld.state, hset]
        exact hp.state_other v hv
      · rw [hset]
        exact hp.gen_eq
    have hhandle : ∀ v, s'.handleAt v = s.handleAt v := fun v => by
      rw [PoolWorld.handleAt, SparseSet.handleAt, hp'.gen_eq, PoolWorld.handleAt, SparseSet.handleAt]
    have hundeleted : s.handleAt w ∉ s.deleted := by
      have hidle := (hi.1.idle w hp.idle).2
      simp only [busy] at hidle
      rw [mem_deleted hN hi.1, ← Multiset.count_pos]
      omega
    refine ⟨(s.handleAt w, true), s', reg, ?_, fun _ => ⟨hp'.changes, .fresh (s.handleAt w) ::ₘ r,
      ⟨?_, ?_⟩, hB.cons (by simp), hsome _⟩⟩
    · simp only [popLocked, hpop, Except.map, PoolWorld.handleAt, hwho]
      rfl
    · rw [Multiset.cons_add]
      exact hi'.congr hset hcount rfl
    · refine hi.2.turn w _ (.inl ⟨rfl, fun ho => ho.1 hp.idle, hp'.state_self, ?_⟩) rfl fun v hv => ?_
      · rw [hhandle]
        exact hundeleted
      · rw [Open, Open, hp'.state_other v hv, hhandle]

/-- Every operation keeps count and turns. -/
theorem sound (hN : N < 2 ^ 32) (hK : 0 < K) (O : ObjectPool) (postRelease : V → V) (n : Nat) :
    (discipline O postRelease N K n).Sound (noAnswers _) := by
  intro op vars r hcan howns
  by_cases hop : ∃ i state, op = .acquire i state
  · obtain ⟨i, state, rfl⟩ := hop
    obtain ⟨f, hf, rfl⟩ := howns
    have hall := keeps_start hf (.acquire i state) (droppedPtr (.acquire i state) vars)
    suffices hsafe : Safe (discipline O postRelease N K n) (noAnswers _)
        (Keeps (∑ i ∈ kept (.acquire i state), f i) (droppedPtr (.acquire i state) vars))
        (O.prog postRelease (.acquire i state))
        (fun _ reg r' => Owns (PtrOp.leave (.acquire i state) vars reg) r')
        (PtrOp.enter (.acquire i state) vars) (∑ i, f i) from
      Safe.mono (fun r hr => ⟨f, hf, hr⟩) (fun _ _ _ hpost => hpost) hsafe
    have hend : ∀ (p : SharedPoolPtr) (c : Multiset Tok) (reg : PtrReg), Cell (some p) c →
        Safe (discipline O postRelease N K n) (noAnswers _)
          (Keeps (∑ i ∈ kept (.acquire i state), f i) (droppedPtr (.acquire i state) vars))
          ((thisLens : Lens (World V N K) SharedPoolPtr).modify fun _ => p)
          (fun _ reg r' => Owns (PtrOp.leave (.acquire i state) vars reg) r') reg (c + ∑ i, f i) :=
      fun p c reg hc => safe_of_safely hN hK (orderly_modify (fun _ _ => rfl) _)
        (safely_setThis (hall.cell hc) (owns_fill hf hcan.2 hc))
    refine Safe.bind (Safe.bind (safe_popLocked hN hK hcan.1 hall (fun x => ?_) fun x => ?_))
    · have hnull := hend .null 0 (PtrOp.enter (.acquire i state) vars) rfl
      rw [zero_add] at hnull
      exact ⟨hall, hnull⟩
    · exact safe_of_safely hN hK (orderly_acquired x) (safely_acquired hN hall fun p c hc =>
        hend p c _ hc)
  · have hother : ∀ i state, op ≠ .acquire i state := fun i state he => hop ⟨i, state, he⟩
    have hsafe := RefCount.sound (K := K) hN hK n
      (fun idx (u : Journal N × V) => (record idx ⟨.release, O.release⟩ u.1, u.2))
      (fun u => (u.1, postRelease u.2)) op vars r hcan howns
    have h : Safe (discipline O postRelease N K n) (noAnswers _) _ _ _ _ _ :=
      safe_of_safely hN hK (orderly_prog op hother) hsafe
    rw [← O.prog_eq postRelease hother] at h
    exact h

/-! ## every run -/

/-- What a call does to the object. -/
def effects (O : ObjectPool) : Call → List Effect
  | .acquire => O.acquire
  | .release => O.release

/-- The journal is right, and complete. -/
def Noted (O : ObjectPool) (s : PoolWorld (Journal N × V) N K) : Prop :=
  ∀ w, (∀ e ∈ s.rest.1 w, e.effects = O.effects e.call) ∧
    s.releases w = (s.rest.1 w).countP fun e => e.call = .release

/-- Nothing is struck out. -/
def Grows (s s' : PoolWorld (Journal N × V) N K) : Prop := ∀ w, s.rest.1 w <+: s'.rest.1 w

/-- What any action may do, the locked section of `Acquire` included. -/
inductive ActsOrAcquires (O : ObjectPool) (s s' : PoolWorld (Journal N × V) N K) : Prop where
  | acts : O.Acts s s' → ActsOrAcquires O s s'
  | none : s'.deleted = s.deleted → s'.rest.1 = s.rest.1 → ActsOrAcquires O s s'
  | acquire (idx : Nat) : s'.deleted = s.deleted →
      s'.rest.1 = record idx ⟨.acquire, O.acquire⟩ s.rest.1 → ActsOrAcquires O s s'

theorem record_grows (idx : Nat) (e : Entry) (j : Journal N) (w : Fin N) : j w <+: record idx e j w := by
  unfold record
  split_ifs
  · exact List.prefix_append _ _
  · exact List.prefix_rfl

theorem Noted.record {idx : Nat} {c : Call} (h : O.Noted s)
    (hjournal : s'.rest.1 = ObjectPool.record idx ⟨c, O.effects c⟩ s.rest.1)
    (hreleases : ∀ w : Fin N, s'.releases w =
      s.releases w + if c = .release ∧ (w : Nat) = idx then 1 else 0) : O.Noted s' := by
  intro w
  obtain ⟨heffects, hcount⟩ := h w
  rw [hjournal, hreleases, hcount]
  by_cases hw : (w : Nat) = idx
  · rw [← hw, record_self]
    refine ⟨fun e he => ?_, ?_⟩
    · rcases List.mem_append.mp he with he | he
      · exact heffects e he
      · rw [List.mem_singleton.mp he]
    · rw [List.countP_append, List.countP_singleton]
      cases c <;> simp
  · rw [record_other hw]
    refine ⟨heffects, ?_⟩
    rw [if_neg fun hc => hw hc.2, Nat.add_zero]

/-- The slot that a release counts for. -/
theorem releases_append (hN : N < 2 ^ 32) {h : UInt64}
    (hdeleted : s'.deleted = s.deleted ++ [handleOfSlot s (whoOf h).toNat]) (w : Fin N) :
    s'.releases w = s.releases w + if (w : Nat) = (whoOf h).toNat then 1 else 0 := by
  rw [PoolWorld.releases, hdeleted, List.countP_append, List.countP_singleton, PoolWorld.releases]
  simp only [decide_eq_true_eq, who_handleOfSlot hN s]

theorem Noted.same (h : O.Noted s) (hdeleted : s'.deleted = s.deleted)
    (hjournal : s'.rest.1 = s.rest.1) : O.Noted s' ∧ Grows s s' := by
  refine ⟨fun w => ?_, fun w => by rw [hjournal]⟩
  rw [hjournal, PoolWorld.releases, hdeleted]
  exact h w

theorem Noted.acts (hN : N < 2 ^ 32) (h : O.Noted s) (hacts : O.ActsOrAcquires s s') :
    O.Noted s' ∧ Grows s s' := by
  rcases hacts with (⟨_, hdeleted, hjournal⟩ | ⟨_, _, _, hdeleted, hjournal⟩ |
    ⟨x, _, hdeleted, hjournal⟩) | ⟨hdeleted, hjournal⟩ | ⟨idx, hdeleted, hjournal⟩
  case acts.quiet => exact h.same hdeleted hjournal
  case acts.push => exact h.same hdeleted hjournal
  case acts.release =>
    refine ⟨h.record (c := .release) hjournal fun w => ?_, fun w => ?_⟩
    · rw [releases_append hN hdeleted w]
      simp
    · rw [hjournal]
      exact record_grows _ _ _ w
  case none => exact h.same hdeleted hjournal
  case acquire =>
    refine ⟨h.record (c := .acquire) hjournal fun w => ?_, fun w => ?_⟩
    · simp [PoolWorld.releases, hdeleted]
    · rw [hjournal]
      exact record_grows _ _ _ w

theorem popLocked_acts {state : Nat} {x x' : World V N K} {b : UInt64 × Bool}
    (h : O.popLocked state x = .ok (b, x')) : O.ActsOrAcquires x.1 x'.1 := by
  simp only [popLocked] at h
  cases hpop : SparsePool.popLocked state x.1.pool with
  | error e =>
      rw [hpop] at h
      cases h
  | ok r =>
      rw [hpop] at h
      simp only [Except.map, Except.ok.injEq] at h
      split_ifs at h
      · cases h
        exact .acquire _ rfl rfl
      · cases h
        exact .none rfl rfl

/-- The actions of every operation. -/
theorem every_prog (op : PtrOp n) : (O.prog (N := N) (K := K) postRelease op).Every (noAnswers _)
    fun x x' => O.ActsOrAcquires x.1 x'.1 := by
  have hmono : ∀ {α : Type} {p : Prog (World V N K) NoQuery Fault α}, O.Orderly p →
      p.Every (noAnswers _) fun x x' => O.ActsOrAcquires x.1 x'.1 :=
    fun hp => hp.mono fun _ _ h => .acts h
  by_cases hop : ∃ i state, op = .acquire i state
  · obtain ⟨i, state, rfl⟩ := hop
    refine Prog.Every.bind (Prog.Every.bind (Prog.Every.update fun s b s' => popLocked_acts)
      fun r => Prog.Every.ite trivial (hmono (orderly_acquired _))) fun p => ?_
    exact hmono (orderly_modify (fun _ _ => rfl) _)
  · have hother : ∀ i state, op ≠ .acquire i state := fun i state he => hop ⟨i, state, he⟩
    rw [O.prog_eq postRelease hother]
    exact hmono (orderly_prog op hother)

section Run

variable {ι : Type} [Fintype ι] [DecidableEq ι] {guard : PoolWorld (Journal N × V) N K → Prop}
  {v : V} {c c' : Config (O.client (N := N) (K := K) postRelease n) ι}

theorem noted_sound (hN : N < 2 ^ 32) : (Discipline.plain
    (O.client (N := N) (K := K) postRelease n) O.Noted Grows).Sound (noAnswers _) :=
  Discipline.plain_sound (fun _ _ => List.prefix_rfl) (fun _ _ h hacts => h.acts hN hacts)
    every_prog

/-- In every run the journal is right. -/
theorem noted (hN : N < 2 ^ 32) (hc : Config.Reach (noAnswers _) guard (O.initial postRelease v) c) :
    ∃ R, Good (Discipline.plain _ O.Noted Grows) (noAnswers _) c R := by
  have hstart : Good (Discipline.plain _ O.Noted Grows) (noAnswers _)
      (O.initial postRelease v : Config (O.client (N := N) (K := K) postRelease n) ι)
      fun _ => 0 := by
    refine ⟨fun w => ⟨fun e he => ?_, rfl⟩, fun t => trivial⟩
    cases he
  exact (hstart.run (noted_sound hN) trivial (hc.weaken fun _ _ => trivial)).2

/-- A run without a release goes through fresh states. -/
theorem reach_fresh (hN : N < 2 ^ 32)
    (hc : Config.Reach (noAnswers _) guard (O.initial postRelease v) c)
    (hun : ∀ w, Unreleased (c.shared.rest.1 w)) :
    Config.Reach (noAnswers _) Fresh (O.initial postRelease v) c := by
  induction hc with
  | refl => exact .refl
  | @step c c' t hc hstep hg ih =>
      obtain ⟨R, hgood⟩ := noted hN hc
      obtain ⟨R', hgood'⟩ := noted hN (.step hc hstep hg)
      have hgrows : Grows c.shared c'.shared := by
        rcases (hgood.step (noted_sound hN) hstep trivial trivial).1 with hsame | ⟨-, hgrows⟩
        · rw [hsame]
          exact fun _ => List.prefix_rfl
        · exact hgrows
      refine .step (ih fun w e he => hun w e ((hgrows w).subset he)) hstep fun w => ?_
      rw [(hgood'.inv w).2, List.countP_eq_zero.mpr fun e he => by simpa using hun w e he]
      exact Nat.two_pow_pos 32

/-- In a run that releases no slot too often, slots are acquired and released by
turns. -/
theorem turns (hN : N < 2 ^ 32) (hK : 0 < K)
    (hc : Config.Reach (noAnswers _) Fresh (O.initial postRelease v) c) : Turns c.shared := by
  have hstart : Good (discipline O postRelease N K n) (noAnswers _)
      (O.initial postRelease v : Config (O.client (N := N) (K := K) postRelease n) ι)
      fun _ => 0 := by
    refine ⟨⟨?_, fun w => ⟨rfl, iff_of_false Nat.zero_ne_one fun ho => ho.1 rfl⟩⟩, fun t => ?_⟩
    · rw [Finset.sum_const_zero]
      exact poolInv_new hK _
    · exact ⟨fun _ => 0, fun _ => rfl, by simp⟩
  obtain ⟨-, R, hgood⟩ := hstart.run (sound hN hK O postRelease n) (fresh_new _) hc
  exact hgood.inv.2

end Run

/-! ## one thread, one operation after the other -/

/-- The world after whole operations of one thread, one after the other. -/
def after (O : ObjectPool) (s : PoolWorld (Journal N × V) N K) (vars : PtrVars n) :
    List (PtrOp n) → Option (PoolWorld (Journal N × V) N K)
  | [] => some s
  | op :: ops =>
      if op.Can vars then
        match Prog.run (fun _ _ (q : Empty) => q.elim) (O.prog id op) (s, op.enter vars) with
        | .error _ => none
        | .ok x => after O x.2.1 (op.leave vars x.2.2) ops
      else none

theorem reach_after {ι : Type} [DecidableEq ι]
    {c₀ c : Config (O.client (N := N) (K := K) (id : V → V) n) ι} (t : ι) {ops : List (PtrOp n)}
    {s : PoolWorld (Journal N × V) N K} (hc : Config.Reach (noAnswers _) (fun _ => True) c₀ c)
    (hidle : (c.thread t).running = none) (hs : O.after c.shared (c.thread t).locals ops = some s) :
    ∃ c', Config.Reach (noAnswers _) (fun _ => True) c₀ c' ∧ c'.shared = s := by
  induction ops generalizing c with
  | nil => exact ⟨c, hc, Option.some.inj hs⟩
  | cons op ops ih =>
      simp only [after] at hs
      split_ifs at hs with hcan
      have hexec : Prog.Exec (noAnswers _) (O.prog id op) (c.shared, op.enter (c.thread t).locals)
          (Prog.run (fun _ _ (q : Empty) => q.elim) (O.prog id op)
            (c.shared, op.enter (c.thread t).locals)) :=
        Prog.exec_run (fun _ _ (q : Empty) => q.elim) _ _
      cases hrun : Prog.run (fun _ _ (q : Empty) => q.elim) (O.prog id op)
          (c.shared, op.enter (c.thread t).locals) with
      | error e =>
          rw [hrun] at hs
          cases hs
      | ok x =>
          rw [hrun] at hs hexec
          refine ih (hc.whole hidle hcan hexec) ?_ ?_
          · simp [Config.setThread]
          · simp only [Config.setThread, Function.update_self]
            exact hs

/-! ## without a user's deleter -/

section Bare

variable {T : Members} {isLazy : Bool} {l : List Entry}

/-- Nothing is done to an object that lives as long as the pool. -/
theorem finalised_of_eager {O : ObjectPool} (hO : O = SparsePool.pool_ T false none)
    (halt : alternates .acquire .release (l.map Entry.call) = true)
    (heffects : ∀ e ∈ l, e.effects = O.effects e.call) : Finalised O l := by
  subst hO
  have hnil : ∀ e ∈ l, e.effects = [] := fun e he => by
    rw [heffects e he]
    cases e.call <;> rfl
  refine ⟨halt, fun e he _ => hnil e he, ?_⟩
  rw [ObjectPool.life, List.flatMap_eq_nil_iff.mpr hnil]
  rfl

/-- A slot that was never released was acquired once at most. -/
theorem finalised_of_unreleased {O : ObjectPool} (hO : O = SparsePool.pool_ T isLazy none)
    (halt : alternates .acquire .release (l.map Entry.call) = true)
    (heffects : ∀ e ∈ l, e.effects = O.effects e.call) (hun : Unreleased l) : Finalised O l := by
  subst hO
  refine ⟨halt, fun e he hrel => absurd hrel (hun e he), ?_⟩
  match l, halt, hun with
  | [], _, _ => cases isLazy <;> rfl
  | [e], halt, _ =>
      have hcall : e.call = .acquire := by simpa [alternates] using halt
      have he := heffects e (List.mem_singleton_self e)
      rw [hcall] at he
      rw [ObjectPool.life, List.flatMap_singleton, he]
      cases isLazy <;> rfl
  | e :: e' :: l, halt, hun =>
      have hcall : e'.call = .release := by
        simp only [List.map_cons, alternates, Bool.and_eq_true, beq_iff_eq] at halt
        exact halt.2.1
      exact absurd hcall (hun e' (by simp))

/-- What may be assumed of the states of a run: nothing of a lazy pool, and of
another that no slot has been released `2 ^ 32` times. -/
def Bounded (isLazy : Bool) (s : PoolWorld (Journal N × V) N K) : Prop := isLazy = false → Fresh s

/-- **Slots are cleaned up as they are meant to be** just when the pool is not
lazy, or nothing was to be cleaned up yet. -/
theorem finalised_iff (hN : N < 2 ^ 32) (hK : 0 < K) (T : Members) (isLazy : Bool)
    (postRelease : V → V) (v : V) (ι : Type) [Fintype ι] [DecidableEq ι]
    (c : Config ((SparsePool.pool_ T isLazy none).client (N := N) (K := K) postRelease n) ι)
    (hc : Config.Reach (noAnswers _) (Bounded isLazy)
      ((SparsePool.pool_ T isLazy none).initial postRelease v) c) :
    (∀ w, Finalised (SparsePool.pool_ T isLazy none) (c.shared.rest.1 w)) ↔
      isLazy = false ∨ ∀ w, Unreleased (c.shared.rest.1 w) := by
  obtain ⟨R, hgood⟩ := noted hN hc
  have heffects := fun w => (hgood.inv w).1
  constructor
  · intro hfin
    cases isLazy with
    | false => exact .inl rfl
    | true =>
        refine .inr fun w e he hrel => ?_
        have hdestroy := (hfin w).cleaned e he hrel
        rw [heffects w e he, hrel] at hdestroy
        cases hdestroy
  · rintro (rfl | hun) w
    · have hturns := turns hN hK (hc.weaken fun _ h => h rfl) w
      exact finalised_of_eager rfl hturns.1 (heffects w)
    · have hturns := turns hN hK (reach_fresh hN hc hun) w
      exact finalised_of_unreleased rfl hturns.1 (heffects w) (hun w)

/-- The slots of a lazy pool have been acquired and dropped, and one of them acquired again:
what is to be cleaned up has not been. -/
theorem finalised_iff_dropped :
    ∃ c : Config ((SparsePool.pool_ ⟨true, true⟩ true none).client (N := 2) (K := 2)
        (id : Unit → Unit) 1) (Fin 2),
      ((c.shared.rest.1 0).map (·.call), (c.shared.rest.1 1).map (·.call)) =
        ([.acquire, .release, .acquire], [.acquire, .release]) ∧
      ((∀ w, Finalised (SparsePool.pool_ ⟨true, true⟩ true none) (c.shared.rest.1 w)) ↔
        true = false ∨ ∀ w, Unreleased (c.shared.rest.1 w)) := by
  let O := SparsePool.pool_ ⟨true, true⟩ true none
  have hrun : ((O.after (n := 1) (⟨.new 2 2, [], (fun _ => [], ())⟩ : PoolWorld (Journal 2 × Unit) 2 2)
      (fun _ => none) [.acquire 0 1, .destroy 0, .acquire 0 1, .destroy 0, .acquire 0 1]).map
        fun s => ((s.rest.1 0).map (·.call), (s.rest.1 1).map (·.call))) =
        some ([.acquire, .release, .acquire], [.acquire, .release]) := by
    decide +kernel
  obtain ⟨s, hs, hcalls⟩ := Option.map_eq_some_iff.mp hrun
  obtain ⟨c, hc, rfl⟩ := reach_after (c := O.initial id ()) (0 : Fin 2) .refl rfl hs
  exact ⟨c, hcalls, finalised_iff (by decide) (by decide) ⟨true, true⟩ true id () (Fin 2) c
    (hc.weaken fun _ _ h => Bool.noConfusion h)⟩

end Bare

/-! ## an object that is not destroyed -/

/-- **A lazy pool constructs an object over the one that was there**: acquired,
dropped and acquired again, a slot has seen two constructions. -/
theorem constructs_twice :
    ∃ c : Config ((SparsePool.pool_ ⟨false, false⟩ true none).client (N := 1) (K := 2)
        (id : Unit → Unit) 1) (Fin 1),
      Config.Reach (noAnswers _) (fun _ => True) (ObjectPool.initial _ id ()) c ∧
        (SparsePool.pool_ ⟨false, false⟩ true none).life (c.shared.rest.1 0) =
          [.construct, .construct] ∧
        ¬ Finalised (SparsePool.pool_ ⟨false, false⟩ true none) (c.shared.rest.1 0) := by
  let O := SparsePool.pool_ ⟨false, false⟩ true none
  have hrun : ((O.after (n := 1) (⟨.new 1 2, [], (fun _ => [], ())⟩ : PoolWorld (Journal 1 × Unit) 1 2)
      (fun _ => none) [.acquire 0 1, .destroy 0, .acquire 0 1]).map fun s => O.life (s.rest.1 0)) =
        some [.construct, .construct] := by
    decide +kernel
  obtain ⟨s, hs, hlife⟩ := Option.map_eq_some_iff.mp hrun
  obtain ⟨c, hc, rfl⟩ := reach_after (c := O.initial id ()) (0 : Fin 1) .refl rfl hs
  refine ⟨c, hc, hlife, fun hfin => ?_⟩
  have hlived := hfin.lived
  rw [hlife] at hlived
  cases hlived

end ObjectPool

end ServerStudy
