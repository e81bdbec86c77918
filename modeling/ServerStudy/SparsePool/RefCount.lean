import Mathlib.Algebra.Order.BigOperators.Group.Finset
import Mathlib.Algebra.Order.Group.Multiset
import Mathlib.Data.Fintype.BigOperators
import ServerStudy.SparsePool.Tokens
import ServerStudy.Threads

/-!
# ServerStudy.SparsePool.RefCount

Reference counting under any interleaving.  Threads own variables of type
`SharedPoolPtr`, which they fill by `Acquire`, by copying and by moving, assign,
reset and destroy; every action of `AddRef`, `ReleaseRef` and `Acquire` is a
step of its own.

A variable gives its owner a token for the pointer in it (`Cell`), and each
operation is shown to trade tokens as the pool allows (`sound`).
-/

namespace ServerStudy

/-- Programs that ask nothing. -/
abbrev NoQuery : Type → Type := fun _ => Empty

/-- What is answered to no question. -/
def noAnswers (σ : Type) : Answers σ NoQuery := fun _ _ q _ => q.elim

/-! ## threads with pointers -/

/-- The pointers a special member function works on. -/
structure PtrReg where
  this : SharedPoolPtr
  other : SharedPoolPtr

/-- What a thread does with its variables. -/
inductive PtrOp (n : Nat) where
  | acquire (i : Fin n) (state : Nat)
  | null (i : Fin n)
  | copy (i j : Fin n)
  | move (i j : Fin n)
  | copyAssign (i j : Fin n)
  | moveAssign (i j : Fin n)
  | reset (i : Fin n)
  | destroy (i : Fin n)

/-- Variables: `none` is storage in which no pointer lives. -/
abbrev PtrVars (n : Nat) : Type := Fin n → Option SharedPoolPtr

namespace PtrOp

variable {n : Nat}

/-- The variable whose pointer, as it was before, the operation drops. -/
def dropped : PtrOp n → Option (Fin n)
  | .copyAssign i j | .moveAssign i j => if i = j then none else some i
  | .reset i | .destroy i => some i
  | .acquire _ _ | .null _ | .copy _ _ | .move _ _ => none

/-- Constructors need storage, the others a pointer. -/
def Can : PtrOp n → PtrVars n → Prop
  | .acquire i state, vars => 1 ≤ state ∧ vars i = none
  | .null i, vars => vars i = none
  | .copy i j, vars | .move i j, vars => vars i = none ∧ (vars j).isSome
  | .copyAssign i j, vars | .moveAssign i j, vars => (vars i).isSome ∧ (vars j).isSome
  | .reset i, vars | .destroy i, vars => (vars i).isSome

instance decidableCan (op : PtrOp n) (vars : PtrVars n) : Decidable (op.Can vars) :=
  match op with
  | .acquire i state => inferInstanceAs (Decidable (1 ≤ state ∧ vars i = none))
  | .null i => inferInstanceAs (Decidable (vars i = none))
  | .copy i j | .move i j => inferInstanceAs (Decidable (vars i = none ∧ (vars j).isSome))
  | .copyAssign i j | .moveAssign i j =>
      inferInstanceAs (Decidable ((vars i).isSome ∧ (vars j).isSome))
  | .reset i | .destroy i => inferInstanceAs (Decidable ((vars i).isSome))

def enter (op : PtrOp n) (vars : PtrVars n) : PtrReg :=
  match op with
  | .acquire i _ | .null i | .reset i | .destroy i => ⟨(vars i).getD .null, .null⟩
  | .copy i j | .move i j | .copyAssign i j | .moveAssign i j =>
      ⟨(vars i).getD .null, (vars j).getD .null⟩

def leave (op : PtrOp n) (vars : PtrVars n) (reg : PtrReg) : PtrVars n :=
  match op with
  | .acquire i _ | .null i | .reset i => Function.update vars i (some reg.this)
  | .copy i j | .move i j | .copyAssign i j | .moveAssign i j =>
      Function.update (Function.update vars j (some reg.other)) i (some reg.this)
  | .destroy i => Function.update vars i none

end PtrOp

namespace RefCount

variable {U : Type} {N K n : Nat}

/-- The states of a thread's programs: the shared world and the registers. -/
abbrev World (U : Type) (N K : Nat) : Type := PoolWorld U N K × PtrReg

def poolLens : Lens (World U N K) (Pool N K) where
  get s := s.1.pool
  set p s := ({ s.1 with pool := p }, s.2)
  get_set _ _ := rfl

def thisLens : Lens (World U N K) SharedPoolPtr where
  get s := s.2.this
  set p s := (s.1, { s.2 with this := p })
  get_set _ _ := rfl

def otherLens : Lens (World U N K) SharedPoolPtr where
  get s := s.2.other
  set p s := (s.1, { s.2 with other := p })
  get_set _ _ := rfl

/-- The current handle of the slot the deleter is called with, for the log. -/
def handleOfSlot (s : PoolWorld U N K) (idx : Nat) : UInt64 :=
  (s.pool.set.getHandle (UInt32.ofNat idx)).getD kInvalidHandle

/-- The pool of the threads: the deleter and the post-release function do what
they like with the rest of the state, and the deleter's run is logged. -/
def port (deleter : Nat → U → U) (postRelease : U → U) : PoolPort (World U N K) NoQuery N K where
  pool := poolLens
  deleter idx := Prog.modify fun s =>
    ({ s.1 with
        deleted := s.1.deleted ++ [handleOfSlot s.1 idx], rest := deleter idx s.1.rest }, s.2)
  postRelease := Prog.modify fun s => ({ s.1 with rest := postRelease s.1.rest }, s.2)

section
variable (P : PoolPort (World U N K) NoQuery N K)

/-- The code each operation runs; the constructors end by filling `this`. -/
def prog : PtrOp n → Prog (World U N K) NoQuery Fault Unit
  | .acquire _ state => do
      let p ← SparsePool.acquire P state
      thisLens.modify fun _ => p
  | .null _ => thisLens.modify fun _ => .null
  | .copy _ _ => do
      let p ← SharedPoolPtr.copy P (← otherLens.read id)
      thisLens.modify fun _ => p
  | .move _ _ => do
      let p ← SharedPoolPtr.move otherLens
      thisLens.modify fun _ => p
  | .copyAssign i j => SharedPoolPtr.copyAssign P thisLens otherLens (decide (i = j))
  | .moveAssign i j => SharedPoolPtr.moveAssign P thisLens otherLens (decide (i = j))
  | .reset _ => do
      let _ ← SharedPoolPtr.reset P thisLens
  | .destroy _ => do
      SharedPoolPtr.destroy P (← thisLens.read id)

/-- Threads with `n` pointer variables each. -/
def client (n : Nat) : Client (PoolWorld U N K) (PtrVars n) NoQuery Fault where
  Op := PtrOp n
  Reg := PtrReg
  can := PtrOp.Can
  enter := PtrOp.enter
  prog := prog P
  leave := PtrOp.leave

end

/-! ## the discipline -/

/-- The pointer carries the handle. -/
def Carries (p : Option SharedPoolPtr) (h : UInt64) : Prop := p = some ⟨true, h⟩

instance (p : Option SharedPoolPtr) (h : UInt64) : Decidable (Carries p h) :=
  inferInstanceAs (Decidable (p = some ⟨true, h⟩))

theorem carries_self {p : SharedPoolPtr} (hp : p.pool_ = true) : Carries (some p) p.handle_ := by
  obtain ⟨pool, h⟩ := p
  simp only at hp
  rw [hp]
  rfl

/-- What a variable gives its owner: a counted pointer, or one whose handle is
stale. -/
def Cell (p : Option SharedPoolPtr) (r : Multiset Tok) : Prop :=
  match p with
  | none => r = 0
  | some q => if q.pool_ then r = {.ref q.handle_} ∨ r = {.stale q.handle_} else r = 0

/-- What a thread owns between operations: what its variables give it. -/
def Owns (vars : PtrVars n) (r : Multiset Tok) : Prop :=
  ∃ f : Fin n → Multiset Tok, (∀ i, Cell (vars i) (f i)) ∧ r = ∑ i, f i

/-- All through an operation a thread keeps what its other variables give it,
and it releases no handle but the one it drops. -/
def Keeps (B : Multiset Tok) (d : Option SharedPoolPtr) (r : Multiset Tok) : Prop :=
  B ≤ r ∧ ∀ h, .last h ∈ r ∨ .dead h ∈ r → Carries d h

/-- The variables an operation does not drop. -/
def kept (op : PtrOp n) : Finset (Fin n) := Finset.univ.filter fun i => op.dropped ≠ some i

/-- The pointer an operation drops. -/
def droppedPtr (op : PtrOp n) (vars : PtrVars n) : Option SharedPoolPtr := op.dropped.bind vars

/-- What a thread may do to the pool by the tokens it owns: push the handle it
has run the deleter for, and run the deleter for the handle it has released. -/
structure Changes (s s' : PoolWorld U N K) (r : Multiset Tok) : Prop where
  pushes : ∀ w, s'.gen w ≠ s.gen w → .dead (s.handleAt w) ∈ r
  deletes : ∀ h, s'.deleted.count h ≠ s.deleted.count h → .last h ∈ r
  frees : ∀ w, s.state w ≠ 0 → s'.state w = 0 → s'.gen w ≠ s.gen w

theorem Changes.of_eq {s s' : PoolWorld U N K} {r : Multiset Tok}
    (hset : s'.pool.set = s.pool.set) (hdeleted : s'.deleted = s.deleted) : Changes s s' r where
  pushes w hw := absurd (by rw [PoolWorld.gen, hset, PoolWorld.gen]) hw
  deletes h hh := absurd (by rw [hdeleted]) hh
  frees w hw hw' := absurd (by rw [PoolWorld.state, ← hset, ← PoolWorld.state, hw']) hw

/-- What the threads may own, and what they may do to the pool by it. -/
def discipline (P : PoolPort (World U N K) NoQuery N K) :
    Discipline (client P n) Tok where
  guard s := ∀ w, s.releases w < 2 ^ 32
  bad _ := False
  inv := PoolInv
  idle := Owns
  held op vars r := ∃ f : Fin n → Multiset Tok, (∀ i, Cell (vars i) (f i)) ∧
    Keeps (∑ i ∈ kept op, f i) (droppedPtr op vars) r
  change := Changes

/-! ## single actions -/

section
variable {deleter : Nat → U → U} {postRelease : U → U} {B : Multiset Tok}
  {d : Option SharedPoolPtr} {r r₀ : Multiset Tok} {reg : PtrReg} {h : UInt64} {β : Type}

theorem Keeps.cons {t : Tok} (hK : Keeps B d r)
    (ht : ∀ h, t = .last h ∨ t = .dead h → Carries d h) : Keeps B d (t ::ₘ r) := by
  refine ⟨hK.1.trans (Multiset.le_cons_self r t), fun h hmem => ?_⟩
  simp only [Multiset.mem_cons] at hmem
  rcases hmem with (he | hmem) | (he | hmem)
  · exact ht h (.inl he.symm)
  · exact hK.2 h (.inl hmem)
  · exact ht h (.inr he.symm)
  · exact hK.2 h (.inr hmem)

/-- A program keeps the discipline of threads with `n` pointers. -/
abbrev Safely (n : Nat) (deleter : Nat → U → U) (postRelease : U → U) (B : Multiset Tok)
    (d : Option SharedPoolPtr) (p : Prog (World U N K) NoQuery Fault β)
    (post : β → PtrReg → Multiset Tok → Prop) (reg : PtrReg) (r : Multiset Tok) : Prop :=
  Safe (discipline (n := n) (port deleter postRelease)) (noAnswers _) (Keeps B d) p post reg r

/-- An action on the registers. -/
theorem safely_local {f : World U N K → Except Fault (β × World U N K)} {b : β} {reg' : PtrReg}
    {post : β → PtrReg → Multiset Tok → Prop} (hK : Keeps B d r)
    (hf : ∀ s, f (s, reg) = .ok (b, s, reg')) (hpost : post b reg' r) :
    Safely n deleter postRelease B d (Prog.update f) post reg r :=
  Safe.update hK fun s _ _ hi => ⟨b, s, reg', hf s, fun _ =>
    ⟨.of_eq rfl rfl, r, hi, hK, hpost⟩⟩

theorem safely_readThis {post : SharedPoolPtr → PtrReg → Multiset Tok → Prop} (hK : Keeps B d r)
    (hpost : post reg.this reg r) :
    Safely (U := U) (N := N) (K := K) n deleter postRelease B d (thisLens.read id) post reg r :=
  safely_local hK (fun _ => rfl) hpost

theorem safely_readOther {post : SharedPoolPtr → PtrReg → Multiset Tok → Prop} (hK : Keeps B d r)
    (hpost : post reg.other reg r) :
    Safely (U := U) (N := N) (K := K) n deleter postRelease B d (otherLens.read id) post reg r :=
  safely_local hK (fun _ => rfl) hpost

theorem safely_setThis {p : SharedPoolPtr} {post : Unit → PtrReg → Multiset Tok → Prop}
    (hK : Keeps B d r) (hpost : post () { reg with this := p } r) :
    Safely (U := U) (N := N) (K := K) n deleter postRelease B d (thisLens.modify fun _ => p)
      post reg r :=
  safely_local hK (fun _ => rfl) hpost

theorem safely_setOther {p : SharedPoolPtr} {post : Unit → PtrReg → Multiset Tok → Prop}
    (hK : Keeps B d r) (hpost : post () { reg with other := p } r) :
    Safely (U := U) (N := N) (K := K) n deleter postRelease B d (otherLens.modify fun _ => p)
      post reg r :=
  safely_local hK (fun _ => rfl) hpost

/-- An action on the counts. -/
theorem safely_count {f : World U N K → Except Fault (β × World U N K)}
    {post : β → PtrReg → Multiset Tok → Prop} (hK : Keeps B d r)
    (hf : ∀ s F, PoolInv s (r + F) → ∃ b w m, f (s, reg) = .ok (b, s.recount w m, reg) ∧
      ∃ r', PoolInv (s.recount w m) (r' + F) ∧ Keeps B d r' ∧ post b reg r') :
    Safely n deleter postRelease B d (Prog.update f) post reg r :=
  Safe.update hK fun s F _ hi => by
    obtain ⟨b, w, m, hf, hok⟩ := hf s F hi
    exact ⟨b, _, reg, hf, fun _ => ⟨.of_eq rfl rfl, hok⟩⟩

theorem isValid_of_mem (hN : N < 2 ^ 32) {s : PoolWorld U N K} {R : Multiset Tok}
    (hi : PoolInv s R) (hmem : .ref h ∈ R ∨ .fresh h ∈ R) : s.pool.set.isValid h = true := by
  have hpos : 0 < uses R h + busy R h := by
    simp only [uses, busy]
    cases hmem with
    | inl hmem => exact Nat.add_pos_left (Multiset.count_pos.mpr hmem) _
    | inr hmem => exact Nat.add_pos_right _ (Nat.add_pos_right _ (Multiset.count_pos.mpr hmem))
  exact (SparseSet.isValid_iff hN _ _).mpr (hi.current h hpos)

/-- The validity check of a pointer that owns its handle. -/
theorem safely_isValid (hN : N < 2 ^ 32) {post : Bool → PtrReg → Multiset Tok → Prop}
    (hK : Keeps B d r) (hmem : .ref h ∈ r ∨ .fresh h ∈ r) (hpost : post true reg r) :
    Safely n deleter postRelease B d
      (SparsePool.isValid (port (N := N) (K := K) deleter postRelease) h) post reg r :=
  Safe.update hK fun s F _ hi => ⟨true, s, reg, by
    have hv := isValid_of_mem hN hi (h := h) (by
      simp only [Multiset.mem_add]
      tauto)
    simp only [port, poolLens, hv]
    rfl, fun _ =>
    ⟨.of_eq rfl rfl, r, hi, hK, hpost⟩⟩

/-- The validity check of a pointer whose handle is stale; what is known of the
handle may be repeated or forgotten. -/
theorem safely_isValid_stale (hN : N < 2 ^ 32) {post : Bool → PtrReg → Multiset Tok → Prop}
    (hK : Keeps B d r) (hmem : .stale h ∈ r) (hK' : Keeps B d r₀)
    (hr : r₀ = r ∨ r₀ = .stale h ::ₘ r ∨ r = .stale h ::ₘ r₀) (hpost : post false reg r₀) :
    Safely n deleter postRelease B d
      (SparsePool.isValid (port (N := N) (K := K) deleter postRelease) h) post reg r := by
  refine Safe.update hK fun s F _ hi => ⟨false, s, reg, ?_, fun _ =>
    ⟨.of_eq rfl rfl, r₀, ?_, hK', hpost⟩⟩
  · have hv := PoolInv.isValid_of_past hN (hi.past h (Multiset.mem_add.mpr (.inl hmem)))
    simp only [port, poolLens, hv]
    rfl
  · rcases hr with rfl | rfl | rfl
    · exact hi
    · rw [Multiset.cons_add]
      exact hi.stale_dup (Multiset.mem_add.mpr (.inl hmem))
    · rw [Multiset.cons_add] at hi
      exact hi.stale_drop

/-- The `fetch_add` on the slot of a current handle. -/
theorem update_fetchAdd (hN : N < 2 ^ 32) (s : PoolWorld U N K) (reg : PtrReg) (w : Fin N) :
    ((SparsePool.fetchAdd (whoOf (s.handleAt w)).toNat (poolLens.get (s, reg))).map
      fun x => (x.1, poolLens.set x.2 (s, reg))) =
      .ok (s.pool.refCount_ w, s.recount w (s.pool.refCount_ w + 1), reg) := by
  rw [PoolWorld.handleAt, SparseSet.toNat_whoOf_handleAt hN, SparsePool.fetchAdd_val]
  rfl

/-- The `fetch_sub` on the slot of a current handle. -/
theorem update_fetchSub (hN : N < 2 ^ 32) (s : PoolWorld U N K) (reg : PtrReg) (w : Fin N)
    (hpos : 0 < s.pool.refCount_ w) :
    ((SparsePool.fetchSub (whoOf (s.handleAt w)).toNat (poolLens.get (s, reg))).map
      fun x => (x.1, poolLens.set x.2 (s, reg))) =
      .ok (s.pool.refCount_ w, s.recount w (s.pool.refCount_ w - 1), reg) := by
  rw [PoolWorld.handleAt, SparseSet.toNat_whoOf_handleAt hN]
  simp only [poolLens]
  rw [SparsePool.fetchSub_val _ _ hpos]
  rfl

/-! ## `AddRef` and `ReleaseRef` -/

/-- `AddRef` by the owner of a pointer counts one more. -/
theorem safely_addRef (hN : N < 2 ^ 32) {post : Bool → PtrReg → Multiset Tok → Prop}
    (hK : Keeps B d r) (hmem : .ref h ∈ r) (hpost : post true reg (.ref h ::ₘ r)) :
    Safely n deleter postRelease B d
      (SparsePool.addRef (port (N := N) (K := K) deleter postRelease) h) post reg r := by
  have hK' : Keeps B d (.ref h ::ₘ r) := hK.cons (by simp)
  refine Safe.bind (safely_isValid hN hK (.inl hmem) ?_)
  refine Safe.bind (safely_count hK fun s F hi => ?_)
  have hmem' : .ref h ∈ r + F := Multiset.mem_add.mpr (.inl hmem)
  obtain ⟨w, rfl⟩ := hi.current h (Nat.add_pos_left (Multiset.count_pos.mpr hmem') _)
  refine ⟨_, w, _, update_fetchAdd hN s reg w, .ref (s.handleAt w) ::ₘ r, ?_, hK', hK', hpost⟩
  rw [Multiset.cons_add]
  exact hi.addRef_ref hN w hmem'

/-- `AddRef` of a handle just popped counts the first pointer. -/
theorem safely_addRef_fresh (hN : N < 2 ^ 32) {post : Bool → PtrReg → Multiset Tok → Prop}
    (hK : Keeps B d r₀) (hpost : post true reg (.ref h ::ₘ r₀)) :
    Safely n deleter postRelease B d
      (SparsePool.addRef (port (N := N) (K := K) deleter postRelease) h) post reg
      (.fresh h ::ₘ r₀) := by
  have hK' : Keeps B d (.ref h ::ₘ r₀) := hK.cons (by simp)
  refine Safe.bind (safely_isValid hN (hK.cons (by simp)) (.inr (Multiset.mem_cons_self _ _)) ?_)
  refine Safe.bind (safely_count (hK.cons (by simp)) fun s F hi => ?_)
  rw [Multiset.cons_add] at hi
  obtain ⟨w, rfl⟩ := hi.current h (by simp)
  refine ⟨_, w, _, update_fetchAdd hN s reg w, .ref (s.handleAt w) ::ₘ r₀, ?_, hK', hK', hpost⟩
  rw [Multiset.cons_add]
  exact hi.addRef_fresh hN w

/-- `AddRef` of a stale handle does nothing. -/
theorem safely_addRef_stale (hN : N < 2 ^ 32) {post : Bool → PtrReg → Multiset Tok → Prop}
    (hK : Keeps B d r) (hmem : .stale h ∈ r) (hpost : post false reg (.stale h ::ₘ r)) :
    Safely n deleter postRelease B d
      (SparsePool.addRef (port (N := N) (K := K) deleter postRelease) h) post reg r :=
  have hK' : Keeps B d (.stale h ::ₘ r) := hK.cons (by simp)
  Safe.bind (safely_isValid_stale hN hK hmem hK' (.inr (.inl rfl)) ⟨hK', hpost⟩)

/-- `ReleaseRef` of a stale handle does nothing. -/
theorem safely_releaseRef_stale (hN : N < 2 ^ 32) {post : Bool → PtrReg → Multiset Tok → Prop}
    (hK : Keeps B d r₀) (hpost : post false reg r₀) :
    Safely n deleter postRelease B d
      (SparsePool.releaseRef (port (N := N) (K := K) deleter postRelease) h) post reg
      (.stale h ::ₘ r₀) :=
  Safe.bind (safely_isValid_stale hN (hK.cons (by simp)) (Multiset.mem_cons_self _ _) hK
    (.inr (.inr rfl)) ⟨hK, hpost⟩)

/-- The deleter runs for the handle whose count has reached zero. -/
theorem safely_deleter (hN : N < 2 ^ 32) {post : Unit → PtrReg → Multiset Tok → Prop}
    (hK : Keeps B d r₀) (hd : Carries d h) (hpost : post () reg (.dead h ::ₘ r₀)) :
    Safely n deleter postRelease B d
      ((port (N := N) (K := K) deleter postRelease).deleter (whoOf h).toNat) post reg
      (.last h ::ₘ r₀) := by
  refine Safe.update (hK.cons (by simp [hd])) fun s F _ hi => ?_
  rw [Multiset.cons_add] at hi
  obtain ⟨w, rfl⟩ := hi.current h (by simp)
  have hslot : handleOfSlot s (whoOf (s.handleAt w)).toNat = s.handleAt w := by
    rw [PoolWorld.handleAt, SparseSet.toNat_whoOf_handleAt hN, handleOfSlot,
      SparseSet.getHandle_spec hN]
    rfl
  refine ⟨(), _, reg, rfl, fun _ => ⟨⟨fun _ hw => absurd rfl hw, fun x hx => ?_,
      fun _ hw hw' => absurd hw' hw⟩,
    .dead (s.handleAt w) ::ₘ r₀, ?_, hK.cons (by simp [hd]), hpost⟩⟩
  · by_cases hxw : x = s.handleAt w
    · rw [hxw]
      exact Multiset.mem_cons_self _ _
    · simp [hslot, List.count_append, Ne.symm hxw] at hx
  · rw [Multiset.cons_add, hslot]
    exact hi.delete_last hN w _

/-- `Push` of the handle the deleter has run for. -/
theorem safely_push (hN : N < 2 ^ 32) (hK0 : 0 < K) {post : Bool → PtrReg → Multiset Tok → Prop}
    (hK : Keeps B d r₀) (hd : Carries d h) {r₁ : Multiset Tok} (hr₁ : r₁ = r₀ ∨ r₁ = .stale h ::ₘ r₀)
    (hpost : post true reg r₁) :
    Safely n deleter postRelease B d
      ((port (N := N) (K := K) deleter postRelease).pool.update
        (SparsePool.onSet fun s => s.push h)) post reg (.dead h ::ₘ r₀) := by
  refine Safe.update (hK.cons (by simp [hd])) fun s F hg hi => ?_
  rw [Multiset.cons_add] at hi
  obtain ⟨w, rfl⟩ := hi.current h (by simp)
  obtain ⟨b, hr⟩ := hi.repr
  obtain ⟨set', hpush, hL⟩ := SparseSet.push_spec hN hr hK0 w
  have hlt : (s.gen w).toNat + 1 < 2 ^ 32 := by
    have hrel := hi.releases w
    have hw := hg w
    rw [Multiset.count_cons_self] at hrel
    omega
  have hp : Pushed s { s with pool := { s.pool with set := set' } } w :=
    .of_leads hr hK0 hL hlt rfl rfl
  refine ⟨true, { s with pool := { s.pool with set := set' } }, reg, ?_, fun _ =>
    ⟨⟨fun v hv => ?_, fun _ hx => absurd rfl hx, fun v hv hv' => ?_⟩, r₁, ?_, ?_, hpost⟩⟩
  · simp only [port, poolLens, SparsePool.onSet]
    rw [PoolWorld.handleAt, hpush]
    rfl
  · have hvw : v = w := by
      by_contra hvw
      exact hv (hp.gen_other v hvw)
    rw [hvw]
    exact Multiset.mem_cons_self _ _
  · have hvw : v = w := by
      by_contra hvw
      exact hv (by rw [← hp.state_other v hvw, hv'])
    intro hg
    have hsucc := hp.gen_self
    rw [← hvw, hg] at hsucc
    omega
  · have hi' := hi.push_dead hN hp
    rcases hr₁ with rfl | rfl
    · exact hi'.stale_drop
    · rwa [Multiset.cons_add]
  · rcases hr₁ with rfl | rfl
    · exact hK
    · exact hK.cons (by simp)

theorem safely_postRelease {post : Unit → PtrReg → Multiset Tok → Prop} (hK : Keeps B d r)
    (hpost : post () reg r) :
    Safely n deleter postRelease B d (port (N := N) (K := K) deleter postRelease).postRelease
      post reg r :=
  Safe.update hK fun _ _ _ hi => ⟨(), _, reg, rfl, fun _ =>
    ⟨.of_eq rfl rfl, r, hi.congr rfl rfl rfl, hK, hpost⟩⟩

/-- `ReleaseRef` gives a counted pointer up; the last one's handle is released
and stale from then on. -/
theorem safely_releaseRef (hN : N < 2 ^ 32) (hK0 : 0 < K)
    {post : Bool → PtrReg → Multiset Tok → Prop} (hK : Keeps B d r₀) (hd : Carries d h)
    {r₁ : Multiset Tok} (hr₁ : r₁ = r₀ ∨ r₁ = .stale h ::ₘ r₀) (hfalse : post false reg r₀)
    (htrue : post true reg r₁) :
    Safely n deleter postRelease B d
      (SparsePool.releaseRef (port (N := N) (K := K) deleter postRelease) h) post reg
      (.ref h ::ₘ r₀) := by
  have hK₁ : Keeps B d r₁ := by
    rcases hr₁ with rfl | rfl
    · exact hK
    · exact hK.cons (by simp)
  have hK' : Keeps B d (.ref h ::ₘ r₀) := hK.cons (by simp)
  refine Safe.bind (safely_isValid hN hK' (.inl (Multiset.mem_cons_self _ _)) ?_)
  refine Safe.bind (safely_count hK' fun s F hi => ?_)
  rw [Multiset.cons_add] at hi
  obtain ⟨w, hw⟩ := hi.current h (by simp)
  have hcounted := hi.counted w
  rw [← hw, uses_ref] at hcounted
  have hupd := update_fetchSub hN s reg w (by omega)
  rw [← hw] at hupd
  by_cases hone : s.pool.refCount_ w = 1
  · -- the last pointer: the deleter runs, the handle is pushed
    refine ⟨_, w, _, hupd, .last h ::ₘ r₀, ?_, hK.cons (by simp [hd]), ?_⟩
    · rw [Multiset.cons_add, hw, hone]
      exact PoolInv.fetchSub_last hN w (hw ▸ hi) hone
    · rw [if_pos hone]
      refine Safe.bind (safely_deleter hN hK hd ?_)
      refine Safe.bind (safely_push hN hK0 hK hd hr₁ ?_)
      exact Safe.bind (safely_postRelease hK₁ ⟨hK₁, htrue⟩)
  · refine ⟨_, w, _, hupd, r₀, PoolInv.fetchSub_ref hN w (hw ▸ hi) hone, hK, ?_⟩
    rw [if_neg hone]
    exact ⟨hK, hfalse⟩

/-! ## `Acquire` -/

/-- `s'` is `s` with slot `w` popped: in use, with the handle it had. -/
structure Popped (s s' : PoolWorld U N K) (w : Fin N) : Prop where
  idle : s.state w = 0
  state_self : s'.state w ≠ 0
  state_other : ∀ v, v ≠ w → s'.state v = s.state v
  gen_eq : s'.pool.set.gen = s.pool.set.gen
  count_eq : s'.pool.refCount_ = s.pool.refCount_
  deleted_eq : s'.deleted = s.deleted

/-- The locked section of `Acquire`: no slot, or a handle nobody has. -/
theorem popLocked_cases (hN : N < 2 ^ 32) (hK0 : 0 < K) {state : Nat} (hstate : 1 ≤ state)
    {s : PoolWorld U N K} {R : Multiset Tok} (hi : PoolInv s R) :
    SparsePool.popLocked state s.pool = .ok ((kInvalidHandle, false), s.pool) ∨
    ∃ w set', SparsePool.popLocked state s.pool =
        .ok ((s.handleAt w, true), { s.pool with set := set' }) ∧
      Popped s { s with pool := { s.pool with set := set' } } w ∧
      PoolInv { s with pool := { s.pool with set := set' } } (.fresh (s.handleAt w) ::ₘ R) := by
  obtain ⟨b, hr⟩ := hi.repr
  by_cases hfull : state ≥ K ∨ ∀ w, (b.block w : Nat) ≠ 0
  · have hpop : s.pool.set.pop state = some (kInvalidHandle, s.pool.set) := by
      cases hfull with
      | inl hge => exact SparseSet.pop_refused _ hge
      | inr hidle =>
          by_cases hge : state ≥ K
          · exact SparseSet.pop_refused _ hge
          · exact SparseSet.pop_empty hr hK0 (Nat.lt_of_not_ge hge) hidle
    left
    simp only [SparsePool.popLocked, SparsePool.onSet, hpop, Prog.orFault_some, Except.map,
      SparseSet.isValid_kInvalidHandle hN]
  · simp only [not_or, not_le, not_forall, not_not] at hfull
    obtain ⟨w, set', hidle, hpop, ⟨b', hr', hb'⟩, hgen⟩ :=
      SparseSet.pop_spec hN hr ⟨state, hfull.1⟩ hfull.2
    have hhandle : set'.handleAt w = s.pool.set.handleAt w := by
      rw [SparseSet.handleAt, hgen, SparseSet.handleAt]
    have hp : Popped s { s with pool := { s.pool with set := set' } } w := by
      refine ⟨?_, ?_, fun v hv => ?_, hgen, rfl, rfl⟩
      · rw [PoolWorld.state, hr.state, hidle]
      · rw [PoolWorld.state, hr'.state, hb', Function.update_self]
        simp only
        omega
      · rw [PoolWorld.state, hr'.state, hb', Function.update_of_ne hv, PoolWorld.state, hr.state]
    refine .inr ⟨w, set', ?_, hp, ?_⟩
    · simp only [SparsePool.popLocked, SparsePool.onSet, hpop, Prog.orFault_some, Except.map]
      rw [← hhandle, SparseSet.isValid_handleAt hN, hhandle]
      rfl
    · exact hi.pop_fresh hN w hp.idle ⟨b', hr'⟩ hp.state_self hp.state_other hgen rfl rfl

/-- No generation changes, and no slot in use is freed. -/
theorem Popped.changes {s s' : PoolWorld U N K} {w : Fin N} (hp : Popped s s' w) :
    Changes s s' r := by
  refine ⟨fun v hv => absurd (congrFun hp.gen_eq v) hv,
    fun _ hh => absurd (by rw [hp.deleted_eq]) hh, fun v hv hv' => ?_⟩
  by_cases hvw : v = w
  · rw [hvw] at hv'
    exact absurd hv' hp.state_self
  · rw [hp.state_other v hvw] at hv'
    exact absurd hv' hv

theorem safely_popLocked (hN : N < 2 ^ 32) (hK0 : 0 < K) {state : Nat} (hstate : 1 ≤ state)
    {post : UInt64 × Bool → PtrReg → Multiset Tok → Prop} (hK : Keeps B d r)
    (hnone : ∀ x, post (x, false) reg r) (hsome : ∀ x, post (x, true) reg (.fresh x ::ₘ r)) :
    Safely n deleter postRelease B d
      ((port (N := N) (K := K) deleter postRelease).pool.update (SparsePool.popLocked state))
      post reg r := by
  refine Safe.update hK fun s F _ hi => ?_
  obtain hpop | ⟨w, set', hpop, hp, hi'⟩ := popLocked_cases hN hK0 hstate hi
  · refine ⟨(kInvalidHandle, false), s, reg, ?_, fun _ =>
      ⟨.of_eq rfl rfl, r, hi, hK, hnone _⟩⟩
    simp only [port, poolLens, hpop, Except.map]
    rfl
  · refine ⟨(s.handleAt w, true), { s with pool := { s.pool with set := set' } }, reg, ?_, fun _ =>
      ⟨hp.changes, .fresh (s.handleAt w) ::ₘ r, ?_, hK.cons (by simp), hsome _⟩⟩
    · simp only [port, poolLens, hpop, Except.map]
      rfl
    · rw [Multiset.cons_add]
      exact hi'

/-- What `Acquire` does after its locked section: it makes the first pointer. -/
theorem safely_acquired (hN : N < 2 ^ 32) {post : SharedPoolPtr → PtrReg → Multiset Tok → Prop}
    (hK : Keeps B d r) (hpost : ∀ p c, Cell (some p) c → post p reg (c + r)) :
    Safely n deleter postRelease B d
      (((port (N := N) (K := K) deleter postRelease).pool.update
        (SparsePool.setHandle (whoOf h).toNat h)).bind fun _ =>
          SharedPoolPtr.construct (port (N := N) (K := K) deleter postRelease) h) post reg
      (.fresh h ::ₘ r) := by
  have hfresh : Keeps B d (.fresh h ::ₘ r) := hK.cons (by simp)
  refine Safe.bind (Safe.update hfresh fun s F _ hi => ?_)
  rw [Multiset.cons_add] at hi
  obtain ⟨w, rfl⟩ := hi.current h (by simp)
  refine ⟨(), { s with pool := { s.pool with
      handle_ := Function.update s.pool.handle_ w (s.handleAt w) } }, reg, ?_, fun _ =>
    ⟨.of_eq rfl rfl, .fresh (s.handleAt w) ::ₘ r, ?_, hfresh, ?_⟩⟩
  · have hwho := SparseSet.toNat_whoOf_handleAt hN s.pool.set w
    simp only [port, poolLens, SparsePool.setHandle, PoolWorld.handleAt, hwho]
    rw [FixedArray.set?_val]
    rfl
  · rw [Multiset.cons_add]
    exact hi.congr rfl rfl rfl
  · refine Safe.bind (safely_addRef_fresh hN hK ⟨hK.cons (by simp), ?_⟩)
    exact hpost ⟨true, s.handleAt w⟩ {.ref (s.handleAt w)} (by simp [Cell])

/-- `Acquire` makes a null pointer or the first pointer to a handle. -/
theorem safely_acquire (hN : N < 2 ^ 32) (hK0 : 0 < K) {state : Nat} (hstate : 1 ≤ state)
    {post : SharedPoolPtr → PtrReg → Multiset Tok → Prop} (hK : Keeps B d r)
    (hpost : ∀ p c, Cell (some p) c → post p reg (c + r)) :
    Safely n deleter postRelease B d
      (SparsePool.acquire (port (N := N) (K := K) deleter postRelease) state) post reg r := by
  refine Safe.bind (safely_popLocked hN hK0 hstate hK (fun x => ?_) fun x => ?_)
  · have hnull := hpost .null 0 rfl
    rw [zero_add] at hnull
    exact ⟨hK, hnull⟩
  · exact safely_acquired hN hK hpost

/-! ## pointers -/

theorem Keeps.cell {p : Option SharedPoolPtr} {c : Multiset Tok} (hK : Keeps B d r)
    (hc : Cell p c) : Keeps B d (c + r) := by
  cases p with
  | none =>
      simp only [Cell] at hc
      rwa [hc, zero_add]
  | some q =>
      simp only [Cell] at hc
      split_ifs at hc
      · rcases hc with rfl | rfl <;> exact hK.cons (by simp)
      · rwa [hc, zero_add]

/-- A copy of a pointer one owns. -/
theorem safely_copied (hN : N < 2 ^ 32) {p : SharedPoolPtr} {c : Multiset Tok}
    (hc : Cell (some p) c) (hle : c ≤ r) (hK : Keeps B d r)
    {k : Prog (World U N K) NoQuery Fault β} {post : β → PtrReg → Multiset Tok → Prop}
    (hk : ∀ c', Cell (some p) c' → Safely n deleter postRelease B d k post reg (c' + r)) :
    Safely n deleter postRelease B d
      (if p.pool_ = true then
        (SparsePool.addRef (port (N := N) (K := K) deleter postRelease) p.handle_).bind fun _ => k
      else k) post reg r := by
  cases hp : p.pool_ with
  | false =>
      have hk0 := hk 0 (by simp [Cell, hp])
      rw [zero_add] at hk0
      simpa using hk0
  | true =>
      simp only [Cell, hp, if_true] at hc
      refine Safe.bind ?_
      rcases hc with rfl | rfl
      · exact safely_addRef hN hK (Multiset.singleton_le.mp hle)
          (hk {.ref p.handle_} (by simp [Cell, hp]))
      · exact safely_addRef_stale hN hK (Multiset.singleton_le.mp hle)
          (hk {.stale p.handle_} (by simp [Cell, hp]))

/-- The pointer the operation drops is given up. -/
theorem safely_dropped (hN : N < 2 ^ 32) (hK0 : 0 < K) {p : SharedPoolPtr} {c : Multiset Tok}
    (hc : Cell (some p) c) (hK : Keeps B (some p) r₀)
    {k : Prog (World U N K) NoQuery Fault β} {post : β → PtrReg → Multiset Tok → Prop}
    (hk : Safely n deleter postRelease B (some p) k post reg r₀) :
    Safely n deleter postRelease B (some p)
      (if p.pool_ = true then
        (SparsePool.releaseRef (port (N := N) (K := K) deleter postRelease) p.handle_).bind
          fun _ => k
      else k) post reg (c + r₀) := by
  cases hp : p.pool_ with
  | false =>
      have hc0 : c = 0 := by simpa [Cell, hp] using hc
      rw [hc0, zero_add]
      simpa using hk
  | true =>
      simp only [Cell, hp, if_true] at hc
      refine Safe.bind ?_
      rcases hc with rfl | rfl
      · exact safely_releaseRef hN hK0 hK (carries_self hp) (.inl rfl) hk hk
      · exact safely_releaseRef_stale hN hK hk

/-! ## the operations -/

variable {vars : PtrVars n} {f : Fin n → Multiset Tok}

/-- Variables hold neither a release nor an acquisition under way. -/
theorem mem_cells (hf : ∀ i, Cell (vars i) (f i)) {S : Finset (Fin n)} {x : Tok}
    (hmem : x ∈ ∑ i ∈ S, f i) : ∃ h, x = .ref h ∨ x = .stale h := by
  obtain ⟨i, -, hi⟩ := Multiset.mem_sum.mp hmem
  have hc := hf i
  cases hv : vars i with
  | none =>
      rw [hv] at hc
      simp only [Cell] at hc
      simp [hc] at hi
  | some q =>
      rw [hv] at hc
      simp only [Cell] at hc
      split_ifs at hc
      · rcases hc with hc | hc <;> rw [hc, Multiset.mem_singleton] at hi
        · exact ⟨_, .inl hi⟩
        · exact ⟨_, .inr hi⟩
      · simp [hc] at hi

theorem keeps_cells (hf : ∀ i, Cell (vars i) (f i)) {S S' : Finset (Fin n)} (hS : S ⊆ S') :
    Keeps (∑ i ∈ S, f i) d (∑ i ∈ S', f i) := by
  refine ⟨Finset.sum_le_sum_of_subset hS, fun h hmem => ?_⟩
  cases hmem with
  | inl hmem =>
      obtain ⟨x, hx | hx⟩ := mem_cells hf hmem <;> exact Tok.noConfusion hx
  | inr hmem =>
      obtain ⟨x, hx | hx⟩ := mem_cells hf hmem <;> exact Tok.noConfusion hx

/-- A variable is overwritten. -/
theorem owns_replace (hf : ∀ i, Cell (vars i) (f i)) (i : Fin n) {p : Option SharedPoolPtr}
    {c : Multiset Tok} (hc : Cell p c) :
    Owns (Function.update vars i p) (c + ∑ j ∈ Finset.univ.erase i, f j) := by
  have hsum : ∑ j, Function.update f i c j = c + ∑ j ∈ Finset.univ.erase i, f j := by
    rw [Finset.sum_update_of_mem (Finset.mem_univ i), Finset.sdiff_singleton_eq_erase]
  refine ⟨Function.update f i c, fun j => ?_, hsum.symm⟩
  by_cases hj : j = i
  · subst hj
    simpa using hc
  · simpa [hj] using hf j

/-- Storage is filled. -/
theorem owns_fill (hf : ∀ i, Cell (vars i) (f i)) {i : Fin n} (hi : vars i = none)
    {p : Option SharedPoolPtr} {c : Multiset Tok} (hc : Cell p c) :
    Owns (Function.update vars i p) (c + ∑ j, f j) := by
  have h0 : f i = 0 := by
    have hci := hf i
    rw [hi] at hci
    exact hci
  rw [sum_eq_add f i, h0, zero_add]
  exact owns_replace hf i hc

/-- A pointer moves from one variable to another. -/
theorem owns_move (hf : ∀ i, Cell (vars i) (f i)) {i j : Fin n} (hij : i ≠ j) :
    Owns (Function.update (Function.update vars j (some .null)) i (vars j))
      (∑ k ∈ Finset.univ.erase i, f k) := by
  have hf' : ∀ k, Cell (Function.update vars j (some .null) k) (Function.update f j 0 k) := by
    intro k
    by_cases hk : k = j
    · subst hk
      simp [Cell, SharedPoolPtr.null]
    · simpa [hk] using hf k
  have hsum : ∑ k ∈ Finset.univ.erase i, f k =
      f j + ∑ k ∈ Finset.univ.erase i, Function.update f j 0 k := by
    have hmem : j ∈ Finset.univ.erase i := by simp [hij.symm]
    rw [← Finset.add_sum_erase _ f hmem, ← Finset.add_sum_erase _ (Function.update f j 0) hmem,
      Function.update_self, zero_add]
    congr 1
    refine Finset.sum_congr rfl fun k hk => ?_
    rw [Function.update_of_ne (Finset.ne_of_mem_erase hk)]
  rw [hsum]
  exact owns_replace hf' i (hf j)

/-- What an operation keeps is among the variables it does not drop. -/
theorem kept_subset {op : PtrOp n} {i : Fin n} (hi : op.dropped = some i) :
    kept op ⊆ Finset.univ.erase i := by
  intro k hk
  simp only [kept, Finset.mem_filter, hi, ne_eq, Option.some.injEq] at hk
  simp [Ne.symm hk.2]

/-- An operation on variables with cells `f` keeps the discipline. -/
abbrev SafeOp (N K : Nat) (deleter : Nat → U → U) (postRelease : U → U) (vars : PtrVars n)
    (f : Fin n → Multiset Tok) (op : PtrOp n) : Prop :=
  Safely n deleter postRelease (∑ i ∈ kept op, f i) (droppedPtr op vars)
    (prog (port (N := N) (K := K) deleter postRelease) op)
    (fun _ reg r' => Owns (op.leave vars reg) r') (op.enter vars) (∑ i, f i)

/-- What an operation owns at its start. -/
theorem keeps_start (hf : ∀ i, Cell (vars i) (f i)) (op : PtrOp n) (d : Option SharedPoolPtr) :
    Keeps (∑ i ∈ kept op, f i) d (∑ i, f i) := keeps_cells hf (Finset.subset_univ _)

/-- What an operation owns without the pointer it drops. -/
theorem keeps_rest (hf : ∀ i, Cell (vars i) (f i)) {op : PtrOp n} {i : Fin n}
    (hi : op.dropped = some i) (d : Option SharedPoolPtr) :
    Keeps (∑ k ∈ kept op, f k) d (∑ k ∈ Finset.univ.erase i, f k) :=
  keeps_cells hf (kept_subset hi)

theorem safeOp_acquire (hN : N < 2 ^ 32) (hK0 : 0 < K) (hf : ∀ i, Cell (vars i) (f i))
    {i : Fin n} {state : Nat} (hstate : 1 ≤ state) (hi : vars i = none) :
    SafeOp N K deleter postRelease vars f (.acquire i state) := by
  have hall := keeps_start hf (.acquire i state) (droppedPtr (.acquire i state) vars)
  refine Safe.bind (safely_acquire hN hK0 hstate hall fun p c hc => ?_)
  exact safely_setThis (hall.cell hc) (owns_fill hf hi hc)

theorem safeOp_null (hf : ∀ i, Cell (vars i) (f i)) {i : Fin n} (hi : vars i = none) :
    SafeOp N K deleter postRelease vars f (.null i) := by
  refine safely_setThis (keeps_start hf _ _) ?_
  have hfill := owns_fill hf hi (p := some .null) (c := 0) rfl
  rwa [zero_add] at hfill

theorem safeOp_copy (hN : N < 2 ^ 32) (hf : ∀ i, Cell (vars i) (f i)) {i j : Fin n}
    {p : SharedPoolPtr} (hi : vars i = none) (hp : vars j = some p) :
    SafeOp N K deleter postRelease vars f (.copy i j) := by
  have hall := keeps_start hf (.copy i j) (droppedPtr (.copy i j) vars)
  have hcp : Cell (some p) (f j) := hp ▸ hf j
  refine Safe.bind (safely_readOther hall ?_)
  simp only [PtrOp.enter, hp, Option.getD_some]
  refine Safe.bind (safely_copied hN hcp (Finset.single_le_sum (by simp) (Finset.mem_univ j))
    hall fun c hc => ⟨hall.cell hc, ?_⟩)
  refine safely_setThis (hall.cell hc) ?_
  simp only [PtrOp.leave, ← hp, Function.update_eq_self]
  exact owns_fill hf hi (hp ▸ hc)

theorem safeOp_move (hf : ∀ i, Cell (vars i) (f i)) {i j : Fin n} {p : SharedPoolPtr}
    (hi : vars i = none) (hp : vars j = some p) :
    SafeOp N K deleter postRelease vars f (.move i j) := by
  have hall := keeps_start hf (.move i j) (droppedPtr (.move i j) vars)
  have hij : i ≠ j := by
    rintro rfl
    simp [hi] at hp
  have h0 : f i = 0 := by
    have hci := hf i
    rw [hi] at hci
    exact hci
  refine Safe.bind (Safe.bind (safely_readOther hall ?_))
  refine Safe.bind (safely_setOther hall ⟨hall, ?_⟩)
  refine safely_setThis hall ?_
  simp only [PtrOp.leave, PtrOp.enter, hp, Option.getD_some]
  rw [← hp, sum_eq_add f i, h0, zero_add]
  exact owns_move hf hij

/-- Assigning a variable to itself does nothing. -/
theorem owns_self (hf : ∀ i, Cell (vars i) (f i)) {i : Fin n} {a : SharedPoolPtr}
    (ha : vars i = some a) :
    Owns (Function.update (Function.update vars i (some a)) i (some a)) (∑ i, f i) :=
  ⟨f, fun k => by simp [← ha, hf], rfl⟩

theorem safeOp_copyAssign (hN : N < 2 ^ 32) (hK0 : 0 < K) (hf : ∀ i, Cell (vars i) (f i))
    {i j : Fin n} {a p : SharedPoolPtr} (ha : vars i = some a) (hp : vars j = some p) :
    SafeOp N K deleter postRelease vars f (.copyAssign i j) := by
  have hall := keeps_start hf (.copyAssign i j) (droppedPtr (.copyAssign i j) vars)
  by_cases hij : i = j
  · subst hij
    simp only [SafeOp, prog, SharedPoolPtr.copyAssign, decide_true, if_true]
    refine ⟨hall, ?_⟩
    simp only [PtrOp.leave, PtrOp.enter, ha, Option.getD_some]
    exact owns_self hf ha
  · have hdrop : PtrOp.dropped (.copyAssign i j) = some i := if_neg hij
    have hptr : droppedPtr (.copyAssign i j) vars = some a := by
      rw [droppedPtr, hdrop, Option.bind_some, ha]
    have hrest := keeps_rest hf hdrop (some a)
    have hca : Cell (some a) (f i) := ha ▸ hf i
    have hcp : Cell (some p) (f j) := hp ▸ hf j
    rw [hptr] at hall
    simp only [SafeOp, hptr, prog, SharedPoolPtr.copyAssign, hij, decide_false, Bool.false_eq_true,
      if_false]
    refine Safe.bind (safely_readThis hall ?_)
    refine Safe.bind (safely_readOther hall ?_)
    refine Safe.bind (safely_setThis hall ?_)
    simp only [PtrOp.enter, ha, hp, Option.getD_some]
    refine safely_copied hN hcp (Finset.single_le_sum (by simp) (Finset.mem_univ j)) hall
      fun c hc => ?_
    rw [sum_eq_add f i, add_left_comm]
    refine safely_dropped hN hK0 hca (hrest.cell hc) ⟨hrest.cell hc, ?_⟩
    simp only [PtrOp.leave, ← hp, Function.update_eq_self]
    exact owns_replace hf i (hp ▸ hc)

theorem safeOp_moveAssign (hN : N < 2 ^ 32) (hK0 : 0 < K) (hf : ∀ i, Cell (vars i) (f i))
    {i j : Fin n} {a p : SharedPoolPtr} (ha : vars i = some a) (hp : vars j = some p) :
    SafeOp N K deleter postRelease vars f (.moveAssign i j) := by
  have hall := keeps_start hf (.moveAssign i j) (droppedPtr (.moveAssign i j) vars)
  by_cases hij : i = j
  · subst hij
    simp only [SafeOp, prog, SharedPoolPtr.moveAssign, decide_true, if_true]
    refine ⟨hall, ?_⟩
    simp only [PtrOp.leave, PtrOp.enter, ha, Option.getD_some]
    exact owns_self hf ha
  · have hdrop : PtrOp.dropped (.moveAssign i j) = some i := if_neg hij
    have hptr : droppedPtr (.moveAssign i j) vars = some a := by
      rw [droppedPtr, hdrop, Option.bind_some, ha]
    have hrest := keeps_rest hf hdrop (some a)
    have hca : Cell (some a) (f i) := ha ▸ hf i
    rw [hptr] at hall
    simp only [SafeOp, hptr, prog, SharedPoolPtr.moveAssign, hij, decide_false, Bool.false_eq_true,
      if_false]
    refine Safe.bind (safely_readThis hall ?_)
    simp only [PtrOp.enter, ha, hp, Option.getD_some]
    rw [sum_eq_add f i]
    refine safely_dropped hN hK0 hca hrest ?_
    refine Safe.bind (safely_readOther hrest ?_)
    refine Safe.bind (safely_setThis hrest ?_)
    refine safely_setOther hrest ?_
    simp only [PtrOp.leave, ← hp]
    exact owns_move hf hij

theorem safeOp_reset (hN : N < 2 ^ 32) (hK0 : 0 < K) (hf : ∀ i, Cell (vars i) (f i))
    {i : Fin n} {a : SharedPoolPtr} (ha : vars i = some a) :
    SafeOp N K deleter postRelease vars f (.reset i) := by
  have hdrop : PtrOp.dropped (.reset i) = some i := rfl
  have hptr : droppedPtr (.reset i) vars = some a := by
    rw [droppedPtr, hdrop, Option.bind_some, ha]
  have hall := keeps_start hf (.reset i) (some a)
  have hrest := keeps_rest hf hdrop (some a)
  have hca : Cell (some a) (f i) := ha ▸ hf i
  have hsame : Owns (Function.update vars i (some a)) (∑ k, f k) :=
    ⟨f, fun k => by simp [← ha, hf], rfl⟩
  have hnull := owns_replace hf i (p := some .null) (c := 0) rfl
  rw [zero_add] at hnull
  simp only [SafeOp, hptr, prog, SharedPoolPtr.reset]
  refine Safe.bind (Safe.bind (safely_readThis hall ?_))
  simp only [PtrOp.enter, ha, Option.getD_some]
  cases hpool : a.pool_ with
  | false =>
      refine ⟨hall, hall, ?_⟩
      simpa [PtrOp.leave] using hsame
  | true =>
      simp only [Cell, hpool, if_true] at hca ⊢
      refine Safe.bind ?_
      rcases hca with hca | hca
      · have hkeep : Keeps (∑ k ∈ kept (.reset i), f k) (some a)
            (.stale a.handle_ ::ₘ ∑ k ∈ Finset.univ.erase i, f k) := hrest.cons (by simp)
        have hstale := owns_replace hf i (p := some a) (c := {.stale a.handle_})
          (by simp [Cell, hpool])
        rw [sum_eq_add f i, hca, Multiset.singleton_add] at hall ⊢
        refine safely_isValid hN hall (.inl (Multiset.mem_cons_self _ _)) ?_
        refine Safe.bind (safely_releaseRef hN hK0 hrest (carries_self hpool) (.inr rfl) ?_
          ⟨hkeep, hkeep, hstale⟩)
        exact Safe.bind (safely_setThis hrest ⟨hrest, hrest, hnull⟩)
      · refine safely_isValid_stale hN hall ?_ hall (.inl rfl) ⟨hall, hall, hsame⟩
        rw [sum_eq_add f i, hca]
        simp

theorem safeOp_destroy (hN : N < 2 ^ 32) (hK0 : 0 < K) (hf : ∀ i, Cell (vars i) (f i))
    {i : Fin n} {a : SharedPoolPtr} (ha : vars i = some a) :
    SafeOp N K deleter postRelease vars f (.destroy i) := by
  have hdrop : PtrOp.dropped (.destroy i) = some i := rfl
  have hptr : droppedPtr (.destroy i) vars = some a := by
    rw [droppedPtr, hdrop, Option.bind_some, ha]
  have hall := keeps_start hf (.destroy i) (some a)
  have hrest := keeps_rest hf hdrop (some a)
  have hca : Cell (some a) (f i) := ha ▸ hf i
  have hgone := owns_replace hf i (p := none) (c := 0) rfl
  rw [zero_add] at hgone
  simp only [SafeOp, hptr, prog, SharedPoolPtr.destroy]
  refine Safe.bind (safely_readThis hall ?_)
  simp only [PtrOp.enter, ha, Option.getD_some]
  cases hpool : a.pool_ with
  | false =>
      have h0 : f i = 0 := by simpa [Cell, hpool] using hca
      refine ⟨hall, ?_⟩
      rw [sum_eq_add f i, h0, zero_add]
      exact hgone
  | true =>
      simp only [Cell, hpool, if_true] at hca ⊢
      refine Safe.bind ?_
      rcases hca with hca | hca
      · rw [sum_eq_add f i, hca, Multiset.singleton_add] at hall ⊢
        refine safely_isValid hN hall (.inl (Multiset.mem_cons_self _ _)) ?_
        exact Safe.bind (safely_releaseRef hN hK0 hrest (carries_self hpool) (.inl rfl)
          ⟨hrest, hgone⟩ ⟨hrest, hgone⟩)
      · rw [sum_eq_add f i, hca, Multiset.singleton_add] at hall ⊢
        exact safely_isValid_stale hN hall (Multiset.mem_cons_self _ _) hrest (.inr (.inr rfl))
          ⟨hrest, hgone⟩

/-- Every operation keeps the discipline. -/
theorem sound (hN : N < 2 ^ 32) (hK0 : 0 < K) (n : Nat) (deleter : Nat → U → U)
    (postRelease : U → U) :
    (discipline (n := n) (port (N := N) (K := K) deleter postRelease)).Sound (noAnswers _) := by
  rintro op vars _ hcan ⟨f, hf, rfl⟩
  suffices hop : SafeOp N K deleter postRelease vars f op from
    Safe.mono (fun r hr => ⟨f, hf, hr⟩) (fun _ _ _ hpost => hpost) hop
  cases op with
  | acquire i state => exact safeOp_acquire hN hK0 hf hcan.1 hcan.2
  | null i => exact safeOp_null hf hcan
  | copy i j =>
      obtain ⟨p, hp⟩ := Option.isSome_iff_exists.mp hcan.2
      exact safeOp_copy hN hf hcan.1 hp
  | move i j =>
      obtain ⟨p, hp⟩ := Option.isSome_iff_exists.mp hcan.2
      exact safeOp_move hf hcan.1 hp
  | copyAssign i j =>
      obtain ⟨a, ha⟩ := Option.isSome_iff_exists.mp hcan.1
      obtain ⟨p, hp⟩ := Option.isSome_iff_exists.mp hcan.2
      exact safeOp_copyAssign hN hK0 hf ha hp
  | moveAssign i j =>
      obtain ⟨a, ha⟩ := Option.isSome_iff_exists.mp hcan.1
      obtain ⟨p, hp⟩ := Option.isSome_iff_exists.mp hcan.2
      exact safeOp_moveAssign hN hK0 hf ha hp
  | reset i =>
      obtain ⟨a, ha⟩ := Option.isSome_iff_exists.mp hcan
      exact safeOp_reset hN hK0 hf ha
  | destroy i =>
      obtain ⟨a, ha⟩ := Option.isSome_iff_exists.mp hcan
      exact safeOp_destroy hN hK0 hf ha

end

end RefCount

end ServerStudy
