import ServerStudy.Prog
import ServerStudy.SparseSet

/-!
# ServerStudy.SparsePool

`SparsePool<T, N, StateCount>` (`Network/Common/Pool/SparsePool.hpp`): a
`SparseSet` of handles together with one reference count a slot, and
`SharedPoolPtr<T>` (`SharedPoolPtr.hpp`), the smart pointer that keeps the
count.

The operations are programs whose atomic actions are those of the source: the
unlocked validity check, the `fetch_add` or `fetch_sub`, the run of the deleter,
and the section under `mutex_`.  They run on any state that has the pool in it;
`PoolPort` says where, and what the deleter and the post-release function do.
-/

namespace ServerStudy

/-! ## the pool -/

/-- The fields of `SparsePool`, less the objects: the base class, and of each
`ISparsePool::Slot` its handle and its reference count. -/
structure Pool (N stateCount : Nat) where
  set : SparseSet N stateCount
  handle_ : FixedArray N UInt64
  refCount_ : FixedArray N Nat

/-- A pool nothing was acquired from. -/
def Pool.new (N stateCount : Nat) : Pool N stateCount where
  set := .new N stateCount
  handle_ _ := kInvalidHandle
  refCount_ _ := 0

/-- A `SparsePool` within a state: `deleter idx` is `pool_.Release(idx)`, and
`postRelease` is `postReleaseFunc_`. -/
structure PoolPort (σ : Type) (Q : Type → Type) (N stateCount : Nat) where
  pool : Lens σ (Pool N stateCount)
  deleter : Nat → Prog σ Q Fault Unit
  postRelease : Prog σ Q Fault Unit

namespace SparsePool

variable {σ : Type} {Q : Type → Type} {N K : Nat} (P : PoolPort σ Q N K)

/-- A call of the base class, whose accesses are checked. -/
def onSet {β : Type} (f : SparseSet N K → Option (β × SparseSet N K)) (p : Pool N K) :
    Except Fault (β × Pool N K) :=
  (Prog.orFault (.outOfRange .pool) (f p.set)).map fun r => (r.1, { p with set := r.2 })

/-- `slot->refCount_.fetch_add(1)`: the old count.  It counts objects in memory,
so it never gets near `2 ^ 64`. -/
def fetchAdd (idx : Nat) (p : Pool N K) : Except Fault (Nat × Pool N K) :=
  Prog.orFault (.outOfRange .pool) do
    let count ← p.refCount_.get? idx
    let counts ← p.refCount_.set? idx (count + 1)
    return (count, { p with refCount_ := counts })

/-- `slot->refCount_.fetch_sub(1)`: the old count. -/
def fetchSub (idx : Nat) (p : Pool N K) : Except Fault (Nat × Pool N K) :=
  Prog.orFault (.outOfRange .pool) do
    let count ← p.refCount_.get? idx
    let counts ← p.refCount_.set? idx (if count = 0 then 2 ^ 64 - 1 else count - 1)
    return (count, { p with refCount_ := counts })

/-- `slot->handle_ = handle`. -/
def setHandle (idx : Nat) (handle : UInt64) (p : Pool N K) : Except Fault (Unit × Pool N K) :=
  Prog.orFault (.outOfRange .pool) do
    let handles ← p.handle_.set? idx handle
    return ((), { p with handle_ := handles })

/-- `SparsePool::IsValid`. -/
def isValid (handle : UInt64) : Prog σ Q Fault Bool := P.pool.read fun p => p.set.isValid handle

/-- `SparsePool::AddRef`. -/
def addRef (handle : UInt64) : Prog σ Q Fault Bool := do
  if !(← isValid P handle) then
    return false
  let _ ← P.pool.update (fetchAdd (whoOf handle).toNat)
  return true

/-- `SparsePool::ReleaseRef`. -/
def releaseRef (handle : UInt64) : Prog σ Q Fault Bool := do
  if !(← isValid P handle) then
    return false
  let idx := (whoOf handle).toNat
  if (← P.pool.update (fetchSub idx)) = 1 then
    P.deleter idx
    let _ ← P.pool.update (onSet fun s => s.push handle)
    P.postRelease
    return true
  return false

/-- The section under `mutex_` of `SparsePool::Acquire`: the handle popped and
whether it is valid.  The slots have no `Init`, so `pool_.Acquire` does nothing. -/
def popLocked (state : Nat) (p : Pool N K) : Except Fault ((UInt64 × Bool) × Pool N K) :=
  (onSet (fun s => s.pop state) p).map fun r => ((r.1, r.2.set.isValid r.1), r.2)

/-- `SparsePool::MoveToState`. -/
def moveToState (handle : UInt64) (newState : Nat) : Prog σ Q Fault Bool :=
  P.pool.update (onSet fun s => s.moveToState handle newState)

/-- `SparseSet::GetState`; `none` stands for `static_cast<size_t>(-1)`. -/
def getState (handle : UInt64) : Prog σ Q Fault (Option Nat) :=
  P.pool.read fun p => p.set.getState handle

/-- `SparseSet::GetIndicesInState`. -/
def getIndicesInState (state : Nat) : Prog σ Q Fault (List UInt64) :=
  P.pool.view fun p => Prog.orFault (.outOfRange .pool) (p.set.getIndicesInState state)

theorem fetchAdd_set {idx n : Nat} {p p' : Pool N K} (h : fetchAdd idx p = .ok (n, p')) :
    p'.set = p.set := by
  obtain ⟨count, -, h⟩ := Option.bind_eq_some_iff.mp (Prog.orFault_eq_ok.mp h)
  obtain ⟨counts, -, h⟩ := Option.bind_eq_some_iff.mp h
  rw [← (Prod.mk.inj (Option.some.inj h)).2]

theorem fetchSub_set {idx n : Nat} {p p' : Pool N K} (h : fetchSub idx p = .ok (n, p')) :
    p'.set = p.set := by
  obtain ⟨count, -, h⟩ := Option.bind_eq_some_iff.mp (Prog.orFault_eq_ok.mp h)
  obtain ⟨counts, -, h⟩ := Option.bind_eq_some_iff.mp h
  rw [← (Prod.mk.inj (Option.some.inj h)).2]

theorem setHandle_set {idx : Nat} {handle : UInt64} {p p' : Pool N K} {b : Unit}
    (h : setHandle idx handle p = .ok (b, p')) : p'.set = p.set := by
  obtain ⟨handles, -, h⟩ := Option.bind_eq_some_iff.mp (Prog.orFault_eq_ok.mp h)
  rw [← (Prod.mk.inj (Option.some.inj h)).2]

theorem fetchAdd_val (p : Pool N K) (w : Fin N) :
    fetchAdd w p = .ok (p.refCount_ w,
      { p with refCount_ := Function.update p.refCount_ w (p.refCount_ w + 1) }) := by
  simp [fetchAdd]

theorem fetchSub_val (p : Pool N K) (w : Fin N) (hpos : 0 < p.refCount_ w) :
    fetchSub w p = .ok (p.refCount_ w,
      { p with refCount_ := Function.update p.refCount_ w (p.refCount_ w - 1) }) := by
  have hne : p.refCount_ w ≠ 0 := by omega
  simp [fetchSub, hne]

end SparsePool

/-! ## the pointer -/

/-- The fields of `SharedPoolPtr<T>`.  There is one pool, so `pool_` is whether
the pointer has it or is null. -/
structure SharedPoolPtr where
  pool_ : Bool
  handle_ : UInt64
  deriving DecidableEq

/-- `SharedPoolPtr(nullptr)`. -/
def SharedPoolPtr.null : SharedPoolPtr := ⟨false, kInvalidHandle⟩

instance : Inhabited SharedPoolPtr := ⟨.null⟩

namespace SharedPoolPtr

variable {σ : Type} {Q : Type → Type} {N K : Nat} (P : PoolPort σ Q N K)

/-- `SharedPoolPtr(pool, handle)`. -/
def construct (handle : UInt64) : Prog σ Q Fault SharedPoolPtr := do
  let _ ← SparsePool.addRef P handle
  return ⟨true, handle⟩

/-- `SharedPoolPtr(const SharedPoolPtr&)`. -/
def copy (other : SharedPoolPtr) : Prog σ Q Fault SharedPoolPtr := do
  if other.pool_ then
    let _ ← SparsePool.addRef P other.handle_
  return other

/-- `SharedPoolPtr(SharedPoolPtr&&)`. -/
def move (other : Lens σ SharedPoolPtr) : Prog σ Q Fault SharedPoolPtr := do
  let p ← other.read id
  other.modify fun _ => null
  return p

/-- `operator=(const SharedPoolPtr&)`; `same` is `this == &other`. -/
def copyAssign (this other : Lens σ SharedPoolPtr) (same : Bool) : Prog σ Q Fault Unit := do
  if same then
    return
  let current ← this.read id
  let p ← other.read id
  this.modify fun _ => p
  if p.pool_ then
    let _ ← SparsePool.addRef P p.handle_
  if current.pool_ then
    let _ ← SparsePool.releaseRef P current.handle_

/-- `operator=(SharedPoolPtr&&)`; `same` is `this == &other`. -/
def moveAssign (this other : Lens σ SharedPoolPtr) (same : Bool) : Prog σ Q Fault Unit := do
  if same then
    return
  let current ← this.read id
  if current.pool_ then
    let _ ← SparsePool.releaseRef P current.handle_
  let p ← other.read id
  this.modify fun _ => p
  other.modify fun _ => null

/-- `operator=(SharedPoolPtr&&)` from a temporary, which is null afterwards. -/
def moveAssignTemp (this : Lens σ SharedPoolPtr) (p : SharedPoolPtr) : Prog σ Q Fault Unit := do
  let current ← this.read id
  if current.pool_ then
    let _ ← SparsePool.releaseRef P current.handle_
  this.modify fun _ => p

/-- `~SharedPoolPtr`. -/
def destroy (p : SharedPoolPtr) : Prog σ Q Fault Unit := do
  if p.pool_ then
    if ← SparsePool.isValid P p.handle_ then
      let _ ← SparsePool.releaseRef P p.handle_

/-- `SharedPoolPtr::IsValid`. -/
def isValid (p : SharedPoolPtr) : Prog σ Q Fault Bool := do
  if p.pool_ then
    SparsePool.isValid P p.handle_
  else
    return false

/-- `SharedPoolPtr::Reset`. -/
def reset (this : Lens σ SharedPoolPtr) : Prog σ Q Fault Bool := do
  let p ← this.read id
  if p.pool_ then
    if ← SparsePool.isValid P p.handle_ then
      if ← SparsePool.releaseRef P p.handle_ then
        return true
      this.modify fun _ => null
  return false

end SharedPoolPtr

/-- `SparsePool::Acquire`. -/
def SparsePool.acquire {σ : Type} {Q : Type → Type} {N K : Nat} (P : PoolPort σ Q N K)
    (state : Nat) : Prog σ Q Fault SharedPoolPtr := do
  let (handle, valid) ← P.pool.update (SparsePool.popLocked state)
  if !valid then
    return .null
  P.pool.update (SparsePool.setHandle (whoOf handle).toNat handle)
  SharedPoolPtr.construct P handle

end ServerStudy
