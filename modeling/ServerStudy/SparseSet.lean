import ServerStudy.Machine

/-!
# ServerStudy.SparseSet

`SparseSet<N, stateCount>` (`Network/Common/Pool/SparseSet.hpp`): `N` slots,
each in one of `stateCount` states, addressed by 64-bit generational handles.

`dense_` lists the slot indices grouped by state, `cursor_` holds the bounds of
the groups, and `sparse_` holds, for every slot, its place in `dense_`, its
generation and its state.  A slot moves by one state at a time, by swapping it
to the edge of its group and shifting the bound.

Every array access of the source is a checked one here, so an operation is
`none` exactly when it would touch memory outside an array (or, in the two
loops of `moveToState`, when it would not stop within `stateCount` turns).  The
log lines are left out.
-/

namespace ServerStudy

/-! ## handles -/

/-- `kInvalidHandle`: `static_cast<uint64_t>(-1)`. -/
def kInvalidHandle : UInt64 := 0xFFFFFFFFFFFFFFFF

/-- `static_cast<uint32_t>(handle)`: the slot index in the lower half. -/
def whoOf (handle : UInt64) : UInt32 := handle.toUInt32

/-- `static_cast<uint32_t>(handle >> kIndexShift)`: the generation in the upper half. -/
def generationOf (handle : UInt64) : UInt32 := (handle >>> 32).toUInt32

/-- `(static_cast<uint64_t>(generation) << kIndexShift) | who`. -/
def handleOf (generation who : UInt32) : UInt64 := (generation.toUInt64 <<< 32) ||| who.toUInt64

theorem toNat_whoOf (handle : UInt64) : (whoOf handle).toNat = handle.toNat % 2 ^ 32 := by
  simp [whoOf]

theorem toNat_generationOf (handle : UInt64) :
    (generationOf handle).toNat = handle.toNat / 2 ^ 32 := by
  have := handle.toNat_lt
  simp only [generationOf, UInt64.toNat_toUInt32, UInt64.toNat_shiftRight]
  rw [show (32 : UInt64).toNat % 64 = 32 from rfl, Nat.shiftRight_eq_div_pow]
  omega

theorem toNat_handleOf (g w : UInt32) : (handleOf g w).toNat = g.toNat * 2 ^ 32 + w.toNat := by
  have hg := g.toNat_lt
  have hw := w.toNat_lt
  simp only [handleOf, UInt64.toNat_or, UInt64.toNat_shiftLeft, UInt32.toNat_toUInt64]
  rw [show (32 : UInt64).toNat % 64 = 32 from rfl, Nat.shiftLeft_eq, Nat.mod_eq_of_lt (by omega),
    ← Nat.shiftLeft_eq, Nat.shiftLeft_add_eq_or_of_lt hw, Nat.shiftLeft_eq]

@[simp] theorem whoOf_handleOf (g w : UInt32) : whoOf (handleOf g w) = w := by
  have hw := w.toNat_lt
  apply UInt32.toNat_inj.mp
  rw [toNat_whoOf, toNat_handleOf]
  omega

@[simp] theorem generationOf_handleOf (g w : UInt32) : generationOf (handleOf g w) = g := by
  have hw := w.toNat_lt
  apply UInt32.toNat_inj.mp
  rw [toNat_generationOf, toNat_handleOf]
  omega

/-- A handle is its two halves. -/
theorem handleOf_eta (handle : UInt64) : handleOf (generationOf handle) (whoOf handle) = handle := by
  apply UInt64.toNat_inj.mp
  rw [toNat_handleOf, toNat_whoOf, toNat_generationOf]
  omega

/-! ## the set -/

/-- `SparseSet::Slot`. -/
structure Slot where
  where_ : UInt32 := 0
  generation_ : UInt32 := 0
  state_ : Nat := 0
  deriving DecidableEq

/-- The fields of `SparseSet<N, stateCount>`. -/
structure SparseSet (N stateCount : Nat) where
  sparse_ : FixedArray N Slot
  dense_ : FixedArray N UInt32
  cursor_ : FixedArray (stateCount + 1) UInt32

namespace SparseSet

variable {N stateCount : Nat}

/-- `SparseSet::SparseSet`. -/
def new (N stateCount : Nat) : SparseSet N stateCount where
  sparse_ i := { where_ := UInt32.ofNat i }
  dense_ i := UInt32.ofNat i
  cursor_ k := if k = 0 then 0 else UInt32.ofNat N

/-- `SparseSet::IsValid`. -/
def isValid (s : SparseSet N stateCount) (handle : UInt64) : Bool :=
  match s.sparse_.get? (whoOf handle).toNat with
  | some slot => slot.generation_ == generationOf handle
  | none => false

/-- `SparseSet::GetHandle`. -/
def getHandle (s : SparseSet N stateCount) (who : UInt32) : Option UInt64 := do
  let slot ← s.sparse_.get? who.toNat
  return handleOf slot.generation_ who

/-- `SparseSet::GetState`; `none` stands for `static_cast<size_t>(-1)`. -/
def getState (s : SparseSet N stateCount) (handle : UInt64) : Option Nat :=
  if s.isValid handle then (s.sparse_.get? (whoOf handle).toNat).map Slot.state_ else none

/-- `sparse_[who].where_ = place`. -/
def setWhere (s : SparseSet N stateCount) (who place : Nat) : Option (SparseSet N stateCount) := do
  let slot ← s.sparse_.get? who
  let sparse ← s.sparse_.set? who { slot with where_ := UInt32.ofNat place }
  return { s with sparse_ := sparse }

/-- `sparse_[who].state_ = state`. -/
def setState (s : SparseSet N stateCount) (who state : Nat) : Option (SparseSet N stateCount) := do
  let slot ← s.sparse_.get? who
  let sparse ← s.sparse_.set? who { slot with state_ := state }
  return { s with sparse_ := sparse }

/-- The three lines `IncrementState` and `DecrementState` share: swap two
entries of `dense_` and patch the `where_` of both slots. -/
def swapDense (s : SparseSet N stateCount) (place swapWith : Nat) :
    Option (SparseSet N stateCount) := do
  let x ← s.dense_.get? place
  let y ← s.dense_.get? swapWith
  let dense ← (← s.dense_.set? place y).set? swapWith x
  let s ← { s with dense_ := dense }.setWhere (← dense.get? place).toNat place
  s.setWhere (← dense.get? swapWith).toNat swapWith

/-- `SparseSet::IncrementState`. -/
def incrementState (s : SparseSet N stateCount) (handle : UInt64) :
    Option (Bool × SparseSet N stateCount) := do
  let who := (whoOf handle).toNat
  let slot ← s.sparse_.get? who
  let currentState := slot.state_
  if currentState ≥ stateCount - 1 then
    return (false, s)
  let nextState := currentState + 1
  let cursor ← s.cursor_.get? nextState
  -- a 32-bit subtraction: at `0` it wraps, and the access below is out of range
  let swapWith := (cursor - 1).toNat
  let s ← s.swapDense slot.where_.toNat swapWith
  let cursors ← s.cursor_.set? nextState (cursor - 1)
  let s ← { s with cursor_ := cursors }.setState who nextState
  return (true, s)

/-- `SparseSet::DecrementState`. -/
def decrementState (s : SparseSet N stateCount) (handle : UInt64) :
    Option (Bool × SparseSet N stateCount) := do
  let who := (whoOf handle).toNat
  let slot ← s.sparse_.get? who
  let currentState := slot.state_
  if currentState = 0 then
    return (false, s)
  let prevState := currentState - 1
  let cursor ← s.cursor_.get? currentState
  let swapWith := cursor.toNat
  let s ← s.swapDense slot.where_.toNat swapWith
  let cursors ← s.cursor_.set? currentState (cursor + 1)
  let s ← { s with cursor_ := cursors }.setState who prevState
  return (true, s)

/-- `while (sparse_[who].state_ < newState)` of `MoveToState`, for at most
`turns` turns. -/
def raiseLoop (handle : UInt64) (newState : Nat) :
    Nat → SparseSet N stateCount → Option (Bool × SparseSet N stateCount)
  | 0, _ => none
  | turns + 1, s => do
    let slot ← s.sparse_.get? (whoOf handle).toNat
    if slot.state_ < newState then
      match ← s.incrementState handle with
      | (false, s) => return (false, s)
      | (true, s) => raiseLoop handle newState turns s
    else
      return (true, s)

/-- `while (sparse_[who].state_ > newState)` of `MoveToState`, for at most
`turns` turns. -/
def lowerLoop (handle : UInt64) (newState : Nat) :
    Nat → SparseSet N stateCount → Option (Bool × SparseSet N stateCount)
  | 0, _ => none
  | turns + 1, s => do
    let slot ← s.sparse_.get? (whoOf handle).toNat
    if slot.state_ > newState then
      match ← s.decrementState handle with
      | (false, s) => return (false, s)
      | (true, s) => lowerLoop handle newState turns s
    else
      return (true, s)

/-- `SparseSet::MoveToState`. -/
def moveToState (s : SparseSet N stateCount) (handle : UInt64) (newState : Nat) :
    Option (Bool × SparseSet N stateCount) := do
  if newState ≥ stateCount then
    return (false, s)
  if !s.isValid handle then
    return (false, s)
  match ← raiseLoop handle newState stateCount s with
  | (false, s) => return (false, s)
  | (true, s) => lowerLoop handle newState stateCount s

/-- `SparseSet::Pop`. -/
def pop (s : SparseSet N stateCount) (state : Nat) :
    Option (UInt64 × SparseSet N stateCount) := do
  if state ≥ stateCount then
    return (kInvalidHandle, s)
  let first ← s.cursor_.get? 0
  if first = (← s.cursor_.get? 1) then
    return (kInvalidHandle, s)
  let handle ← s.getHandle (← s.dense_.get? first.toNat)
  let (_, s) ← s.moveToState handle state
  return (handle, s)

/-- `SparseSet::Push`. -/
def push (s : SparseSet N stateCount) (handle : UInt64) :
    Option (Bool × SparseSet N stateCount) := do
  if !s.isValid handle then
    return (false, s)
  let who := (whoOf handle).toNat
  let (_, s) ← s.moveToState handle 0
  let slot ← s.sparse_.get? who
  let sparse ← s.sparse_.set? who { slot with generation_ := slot.generation_ + 1 }
  return (true, { s with sparse_ := sparse })

/-- The loop of `GetIndicesInState`: `turns` entries of `dense_` from `i` on. -/
def collect (s : SparseSet N stateCount) (i : Nat) : Nat → Option (List UInt64)
  | 0 => some []
  | turns + 1 => do
    let handle ← s.getHandle (← s.dense_.get? i)
    return handle :: (← s.collect (i + 1) turns)

/-- `SparseSet::GetIndicesInState`. -/
def getIndicesInState (s : SparseSet N stateCount) (state : Nat) : Option (List UInt64) := do
  if state ≥ stateCount then
    return []
  let first ← s.cursor_.get? state
  let last ← s.cursor_.get? (state + 1)
  s.collect first.toNat (last.toNat - first.toNat)

/-! ## runs -/

/-- One call of a public mutator. -/
inductive Op where
  | pop (state : Nat)
  | push (handle : UInt64)
  | moveToState (handle : UInt64) (newState : Nat)

/-- What a mutator returns. -/
inductive Reply where
  | handle (h : UInt64)
  | flag (b : Bool)
  deriving DecidableEq

/-- Run one call. -/
def apply (s : SparseSet N stateCount) : Op → Option (Reply × SparseSet N stateCount)
  | .pop state => (s.pop state).map fun r => (.handle r.1, r.2)
  | .push h => (s.push h).map fun r => (.flag r.1, r.2)
  | .moveToState h state => (s.moveToState h state).map fun r => (.flag r.1, r.2)

/-- The states reachable from the constructor by any sequence of calls. -/
inductive Reachable : SparseSet N stateCount → Prop where
  | new : Reachable (new N stateCount)
  | apply {s s' : SparseSet N stateCount} {r : Reply} (op : Op) :
      Reachable s → s.apply op = some (r, s') → Reachable s'

/-- The calls of a run and what they returned, the last one first. -/
abbrev Log := List (Op × Reply)

/-- `Run ok s s' log`: the calls of `log` lead from `s` to `s'`, each one made
where `ok` allows it. -/
inductive Run (ok : SparseSet N stateCount → Log → Op → Prop) (s : SparseSet N stateCount) :
    SparseSet N stateCount → Log → Prop where
  | start : Run ok s s []
  | call {s' s'' : SparseSet N stateCount} {log : Log} {op : Op} {r : Reply} :
      Run ok s s' log → ok s' log op → s'.apply op = some (r, s'') → Run ok s s'' ((op, r) :: log)

/-- Any call, anywhere. -/
def anyCall (_ : SparseSet N stateCount) (_ : Log) (_ : Op) : Prop := True

variable {ok : SparseSet N stateCount → Log → Op → Prop} {s s' : SparseSet N stateCount} {log : Log}

/-- What a run leads to is reachable. -/
theorem Run.reachable (h : Run ok s s' log) (hs : Reachable s) : Reachable s' := by
  induction h with
  | start => exact hs
  | call _ _ hop ih => exact .apply _ ih hop

theorem Run.any (h : Run ok s s' log) : Run anyCall s s' log := by
  induction h with
  | start => exact .start
  | call _ _ hop ih => exact .call ih trivial hop

/-- Make the calls of a list, the last one first. -/
def play (s : SparseSet N stateCount) : List Op → Option (SparseSet N stateCount × Log)
  | [] => some (s, [])
  | op :: ops => do
    let (s', log) ← play s ops
    let (r, s'') ← s'.apply op
    return (s'', (op, r) :: log)

/-- They are a run. -/
theorem Run.of_play {ops : List Op} (hok : ∀ s' log, ∀ op ∈ ops, ok s' log op)
    (h : s.play ops = some (s', log)) : Run ok s s' log := by
  induction ops generalizing s' log with
  | nil =>
      obtain ⟨rfl, rfl⟩ := Prod.mk.inj (Option.some.inj h)
      exact .start
  | cons op ops ih =>
      obtain ⟨⟨s₁, log₁⟩, h₁, h⟩ := Option.bind_eq_some_iff.mp h
      obtain ⟨⟨r, s₂⟩, h₂, h⟩ := Option.bind_eq_some_iff.mp h
      obtain ⟨rfl, rfl⟩ := Prod.mk.inj (Option.some.inj h)
      exact .call (ih (fun s' log op' hop' => hok s' log op' (List.mem_cons_of_mem _ hop')) h₁)
        (hok _ _ _ List.mem_cons_self) h₂

end SparseSet

end ServerStudy
