import ServerStudy.Blocks
import ServerStudy.SparseSet

/-!
# ServerStudy.SparseSet.Repr

The three arrays of a `SparseSet` represent a partition of the slots into
consecutive blocks (`ServerStudy.Blocks`): `dense_` is the order, `cursor_` the
bounds, and `sparse_` stores every slot's position and block.

Each operation has one lemma here, stated against the partition it represents:

* `swapDense_spec`, `incrementState_spec`, `decrementState_spec` — one step;
* `raiseLoop_spec`, `lowerLoop_spec`, `moveToState_spec` — the loops;
* `push_spec`, `pop_spec`, `getIndicesInState_spec` — the rest.

None of them can fail on a represented state, so no access is out of range.
-/

namespace ServerStudy

namespace SparseSet

variable {N K : Nat}

/-! ## the representation -/

/-- The arrays of `s` hold the partition `b`. -/
structure Repr (s : SparseSet N K) (b : Blocks N K) : Prop where
  dense : ∀ i, s.dense_ i = UInt32.ofNat (b.elem i)
  place : ∀ w, (s.sparse_ w).where_ = UInt32.ofNat (b.pos w)
  state : ∀ w, (s.sparse_ w).state_ = b.block w
  cursor : ∀ k : Fin (K + 1), s.cursor_ k = UInt32.ofNat (b.bound k)

/-- The generation of a slot. -/
def gen (s : SparseSet N K) (w : Fin N) : UInt32 := (s.sparse_ w).generation_

/-- The current handle of a slot. -/
def handleAt (s : SparseSet N K) (w : Fin N) : UInt64 := handleOf (s.gen w) (UInt32.ofNat w)

/-- The slot indices fit the 32 bits they are stored in. -/
theorem toNat_ofFin (hN : N < 2 ^ 32) (i : Fin N) : (UInt32.ofNat i).toNat = i :=
  toNat_ofNat32 (by omega)

/-- A handle is valid exactly when it is the current handle of a slot. -/
theorem isValid_iff (hN : N < 2 ^ 32) (s : SparseSet N K) (h : UInt64) :
    s.isValid h = true ↔ ∃ w, h = s.handleAt w := by
  unfold isValid
  constructor
  · intro hv
    by_cases hlt : (whoOf h).toNat < N
    · rw [FixedArray.get?_of_lt _ hlt] at hv
      refine ⟨⟨_, hlt⟩, ?_⟩
      have hg : s.gen ⟨_, hlt⟩ = generationOf h := by simpa [gen] using hv
      rw [handleAt, hg]
      simp only [UInt32.ofNat_toNat]
      exact (handleOf_eta h).symm
    · simp [FixedArray.get?, hlt] at hv
  · rintro ⟨w, rfl⟩
    simp [handleAt, toNat_ofFin hN, gen]

@[simp] theorem isValid_handleAt (hN : N < 2 ^ 32) (s : SparseSet N K) (w : Fin N) :
    s.isValid (s.handleAt w) = true := (isValid_iff hN s _).mpr ⟨w, rfl⟩

/-- The index half of a current handle. -/
theorem toNat_whoOf_handleAt (hN : N < 2 ^ 32) (s : SparseSet N K) (w : Fin N) :
    (whoOf (s.handleAt w)).toNat = w := by
  rw [handleAt, whoOf_handleOf, toNat_ofFin hN]

theorem handleAt_inj (hN : N < 2 ^ 32) (s : SparseSet N K) {v w : Fin N}
    (h : s.handleAt v = s.handleAt w) : v = w := by
  apply Fin.ext
  rw [← toNat_whoOf_handleAt hN s v, h, toNat_whoOf_handleAt hN s w]

/-- The invalid handle is never valid. -/
theorem isValid_kInvalidHandle (hN : N < 2 ^ 32) (s : SparseSet N K) :
    s.isValid kInvalidHandle = false := by
  have hwho : (whoOf kInvalidHandle).toNat = 2 ^ 32 - 1 := by decide
  have hn : ¬ 2 ^ 32 - 1 < N := by omega
  unfold isValid
  rw [hwho, FixedArray.get?, dif_neg hn]

theorem kInvalidHandle_ne_handleAt (hN : N < 2 ^ 32) (s : SparseSet N K) (w : Fin N) :
    kInvalidHandle ≠ s.handleAt w := by
  intro h
  have hv := isValid_handleAt hN s w
  rw [← h, isValid_kInvalidHandle hN s] at hv
  exact Bool.noConfusion hv

/-! ## the constructor -/

theorem repr_new (hK : 0 < K) : Repr (new N K) (Blocks.init N K hK) where
  dense _ := rfl
  place _ := rfl
  state _ := rfl
  cursor k := by
    by_cases hk : k = 0
    · subst hk
      rfl
    · have hk' : (k : Nat) ≠ 0 := fun h => hk (Fin.ext h)
      simp [new, Blocks.init, hk]

/-! ## one step -/

/-- Swapping two entries of `dense_` transposes the order, keeps generations
and states, and leaves the bounds alone. -/
theorem swapDense_spec (hN : N < 2 ^ 32) (s : SparseSet N K) (e : Equiv.Perm (Fin N))
    (hd : ∀ i, s.dense_ i = UInt32.ofNat (e i))
    (hw : ∀ w, (s.sparse_ w).where_ = UInt32.ofNat (e.symm w)) (p q : Fin N) :
    ∃ s', s.swapDense p q = some s' ∧ s'.cursor_ = s.cursor_ ∧
      (∀ i, s'.dense_ i = UInt32.ofNat ((Equiv.swap p q).trans e i)) ∧
      ∀ w, s'.sparse_ w =
        { s.sparse_ w with where_ := UInt32.ofNat (((Equiv.swap p q).trans e).symm w) } := by
  have hp : Function.update (Function.update s.dense_ p (s.dense_ q)) q (s.dense_ p) p =
      UInt32.ofNat (e q) := by
    rcases eq_or_ne p q with rfl | hpq
    · simp [hd]
    · rw [Function.update_of_ne hpq, Function.update_self, hd]
  have hq : Function.update (Function.update s.dense_ p (s.dense_ q)) q (s.dense_ p) q =
      UInt32.ofNat (e p) := by rw [Function.update_self, hd]
  let sparse := Function.update s.sparse_ (e q)
    { s.sparse_ (e q) with where_ := UInt32.ofNat p }
  have hs : s.swapDense p q = some
      { s with
        dense_ := Function.update (Function.update s.dense_ p (s.dense_ q)) q (s.dense_ p)
        sparse_ := Function.update sparse (e p)
          { sparse (e p) with where_ := UInt32.ofNat q } } := by
    simp only [swapDense, setWhere, FixedArray.get?_val, FixedArray.set?_val, Option.bind_eq_bind,
      Option.bind_some, Option.pure_def, hp, hq, toNat_ofFin hN, sparse]
  refine ⟨_, hs, rfl, ?_, ?_⟩
  · intro i
    dsimp only
    rw [Equiv.trans_apply]
    rcases eq_or_ne i q with rfl | hiq
    · rw [hq, Equiv.swap_apply_right]
    · rcases eq_or_ne i p with rfl | hip
      · rw [hp, Equiv.swap_apply_left]
      · rw [Function.update_of_ne hiq, Function.update_of_ne hip, hd,
          Equiv.swap_apply_of_ne_of_ne hip hiq]
  · intro w
    have hsymm : ((Equiv.swap p q).trans e).symm w = Equiv.swap p q (e.symm w) := rfl
    rw [hsymm]
    simp only [sparse]
    rcases eq_or_ne w (e p) with rfl | hwp
    · rw [Function.update_self]
      simp only [Equiv.symm_apply_apply, Equiv.swap_apply_left]
      rcases eq_or_ne (e p) (e q) with hpq | hpq
      · rw [hpq, Function.update_self]
      · rw [Function.update_of_ne hpq]
    · rw [Function.update_of_ne hwp]
      rcases eq_or_ne w (e q) with rfl | hwq
      · rw [Function.update_self]
        simp
      · have h1 : e.symm w ≠ p := fun h => hwp (by rw [← h, Equiv.apply_symm_apply])
        have h2 : e.symm w ≠ q := fun h => hwq (by rw [← h, Equiv.apply_symm_apply])
        rw [Function.update_of_ne hwq, Equiv.swap_apply_of_ne_of_ne h1 h2, ← hw]

theorem setState_spec (s : SparseSet N K) (w : Fin N) (state : Nat) :
    s.setState w state =
      some { s with sparse_ := Function.update s.sparse_ w { s.sparse_ w with state_ := state } } := by
  simp [setState]

/-- No generation differs. -/
def SameGen (s s' : SparseSet N K) : Prop := ∀ w, s'.gen w = s.gen w

/-- The state after the three writes of a step: `dense_` and the `where_`s are
those of `s₁`, one bound and one slot's state are new. -/
def stepped (s₁ : SparseSet N K) (k : Fin (K + 1)) (c : UInt32) (w : Fin N) (state : Nat) :
    SparseSet N K :=
  { s₁ with
    cursor_ := Function.update s₁.cursor_ k c
    sparse_ := Function.update s₁.sparse_ w { s₁.sparse_ w with state_ := state } }

/-- A step that transposes the order, shifts bound `k` and changes the block of
`w` represents the partition with these three changes. -/
theorem repr_stepped {s s₁ : SparseSet N K} {b : Blocks N K} (b' : Blocks N K) (hr : Repr s b)
    (hc₁ : s₁.cursor_ = s.cursor_) (hd₁ : ∀ i, s₁.dense_ i = UInt32.ofNat (b'.elem i))
    (hw₁ : ∀ v, s₁.sparse_ v = { s.sparse_ v with where_ := UInt32.ofNat (b'.elem.symm v) })
    {k : Fin (K + 1)} {c : UInt32} {m : Nat} (hm : c = UInt32.ofNat m)
    (hbound : b'.bound = Function.update b.bound k m) {w : Fin N} {x : Fin K}
    (hblock : b'.block = Function.update b.block w x) :
    Repr (stepped s₁ k c w x) b' ∧ SameGen s (stepped s₁ k c w x) := by
  refine ⟨⟨hd₁, fun v => ?_, fun v => ?_, fun j => ?_⟩, fun v => ?_⟩
  · simp only [stepped, Function.update_apply]
    split_ifs with hv
    · rw [hv, hw₁, Blocks.pos]
    · rw [hw₁, Blocks.pos]
  · simp only [stepped, hblock, Function.update_apply]
    split_ifs with hv
    · rfl
    · rw [hw₁, ← hr.state]
  · simp only [stepped, hbound, Function.update_apply, Fin.ext_iff]
    split_ifs with hj
    · exact hm
    · rw [hc₁, hr.cursor]
  · simp only [gen, stepped, Function.update_apply]
    split_ifs with hv
    · rw [hv, hw₁]
    · rw [hw₁]

/-- `IncrementState` moves a slot that is not in the last state to the next
block. -/
theorem incrementState_spec (hN : N < 2 ^ 32) {s : SparseSet N K} {b : Blocks N K}
    (hr : Repr s b) (w : Fin N) (hb : (b.block w : Nat) + 1 < K) {h : UInt64}
    (hh : (whoOf h).toNat = w) :
    ∃ s', s.incrementState h = some (true, s') ∧ Repr s' (b.raise w hb) ∧ SameGen s s' := by
  have hlast := b.last_lt w
  have hmem := b.mem_block w
  have hle := b.bound_le (b.block w + 1)
  obtain ⟨s₁, hs₁, hc₁, hd₁, hw₁⟩ := swapDense_spec hN s b.elem hr.dense hr.place (b.pos w)
    ⟨_, hlast⟩
  have hcur : s.cursor_.get? (b.block w + 1) =
      some (UInt32.ofNat (b.bound (b.block w + 1))) := by
    rw [FixedArray.get?_of_lt _ (by omega), hr.cursor]
  have hpred : (UInt32.ofNat (b.bound (b.block w + 1)) - 1).toNat =
      b.bound (b.block w + 1) - 1 := by
    rw [toNat_pred32] <;> rw [toNat_ofNat32 (by omega)]
    omega
  have hpred' : UInt32.ofNat (b.bound (b.block w + 1)) - 1 =
      UInt32.ofNat (b.bound (b.block w + 1) - 1) := by
    rw [← UInt32.toNat_inj, hpred, toNat_ofNat32 (by omega)]
  have hwhere : (s.sparse_ w).where_.toNat = b.pos w := by rw [hr.place, toNat_ofFin hN]
  refine ⟨stepped s₁ ⟨b.block w + 1, by omega⟩ (UInt32.ofNat (b.bound (b.block w + 1)) - 1) w
    (b.block w + 1), ?_, ?_⟩
  · have hge : ¬ (b.block w : Nat) ≥ K - 1 := by omega
    simp only [incrementState, hh, FixedArray.get?_val, hr.state, hge, if_false, hcur, hpred,
      hwhere, hs₁, Option.bind_eq_bind, Option.bind_some, Option.pure_def,
      FixedArray.set?_of_lt _ (show (b.block w : Nat) + 1 < K + 1 by omega), setState_spec, stepped]
  · exact repr_stepped (b.raise w hb) (x := ⟨b.block w + 1, hb⟩) hr hc₁ hd₁ hw₁ hpred' rfl rfl

/-- `DecrementState` moves a slot that is not in state `0` to the previous
block. -/
theorem decrementState_spec (hN : N < 2 ^ 32) {s : SparseSet N K} {b : Blocks N K}
    (hr : Repr s b) (w : Fin N) (hb : 0 < (b.block w : Nat)) {h : UInt64}
    (hh : (whoOf h).toNat = w) :
    ∃ s', s.decrementState h = some (true, s') ∧ Repr s' (b.lower w hb) ∧ SameGen s s' := by
  have hfirst := b.first_lt w
  have hmem := b.mem_block w
  obtain ⟨s₁, hs₁, hc₁, hd₁, hw₁⟩ := swapDense_spec hN s b.elem hr.dense hr.place (b.pos w)
    ⟨_, hfirst⟩
  have hcur : s.cursor_.get? (b.block w) = some (UInt32.ofNat (b.bound (b.block w))) := by
    rw [FixedArray.get?_of_lt _ (by omega), hr.cursor]
  have hnat : (UInt32.ofNat (b.bound (b.block w))).toNat = b.bound (b.block w) :=
    toNat_ofNat32 (by omega)
  have hsucc : UInt32.ofNat (b.bound (b.block w)) + 1 = UInt32.ofNat (b.bound (b.block w) + 1) := by
    rw [← UInt32.toNat_inj, toNat_succ32 (by omega), hnat, toNat_ofNat32 (by omega)]
  have hwhere : (s.sparse_ w).where_.toNat = b.pos w := by rw [hr.place, toNat_ofFin hN]
  refine ⟨stepped s₁ ⟨b.block w, by omega⟩ (UInt32.ofNat (b.bound (b.block w)) + 1) w
    (b.block w - 1), ?_, ?_⟩
  · have hne : ¬ (b.block w : Nat) = 0 := by omega
    simp only [decrementState, hh, FixedArray.get?_val, hr.state, hne, if_false, hcur, hnat,
      hwhere, hs₁, Option.bind_eq_bind, Option.bind_some, Option.pure_def,
      FixedArray.set?_of_lt _ (show (b.block w : Nat) < K + 1 by omega), setState_spec, stepped]
  · exact repr_stepped (b.lower w hb) (x := ⟨b.block w - 1, by omega⟩) hr hc₁ hd₁ hw₁ hsucc
      rfl rfl

/-! ## the loops -/

/-- An operation's effect on the partition: the states of the slots become
`blocks`, and the generations `gens`. -/
def Leads (s' : SparseSet N K) (blocks : Fin N → Fin K) (gens : Fin N → UInt32) : Prop :=
  (∃ b', Repr s' b' ∧ b'.block = blocks) ∧ s'.gen = gens

theorem raiseLoop_spec (hN : N < 2 ^ 32) (w : Fin N) {h : UInt64} (hh : (whoOf h).toNat = w)
    (x : Fin K) (turns : Nat) {s : SparseSet N K} {b : Blocks N K} (hr : Repr s b)
    (ht : (x : Nat) - b.block w < turns) :
    ∃ s', raiseLoop h x turns s = some (true, s') ∧
      Repr s' (Blocks.raiseTo w x turns b) ∧ SameGen s s' := by
  induction turns generalizing s b with
  | zero => omega
  | succ turns ih =>
      rw [raiseLoop]
      simp only [hh, FixedArray.get?_val, Option.bind_eq_bind, Option.bind_some, hr.state]
      by_cases hlt : (b.block w : Nat) < x
      · obtain ⟨s₁, hs₁, hr₁, hg₁⟩ := incrementState_spec hN hr w (by omega) hh
        obtain ⟨s', hs', hr', hg'⟩ := ih hr₁ (by
          rw [Blocks.block_raise, Function.update_self]
          simp only
          omega)
        refine ⟨s', ?_, ?_, fun v => (hg' v).trans (hg₁ v)⟩
        · rw [if_pos hlt, hs₁]
          exact hs'
        · rw [Blocks.raiseTo, dif_pos (Fin.lt_def.mpr hlt)]
          exact hr'
      · refine ⟨s, by rw [if_neg hlt]; rfl, ?_, fun v => rfl⟩
        rw [Blocks.raiseTo, dif_neg (mt Fin.lt_def.mp hlt)]
        exact hr

theorem lowerLoop_spec (hN : N < 2 ^ 32) (w : Fin N) {h : UInt64} (hh : (whoOf h).toNat = w)
    (x : Fin K) (turns : Nat) {s : SparseSet N K} {b : Blocks N K} (hr : Repr s b)
    (ht : (b.block w : Nat) - x < turns) :
    ∃ s', lowerLoop h x turns s = some (true, s') ∧
      Repr s' (Blocks.lowerTo w x turns b) ∧ SameGen s s' := by
  induction turns generalizing s b with
  | zero => omega
  | succ turns ih =>
      rw [lowerLoop]
      simp only [hh, FixedArray.get?_val, Option.bind_eq_bind, Option.bind_some, hr.state]
      by_cases hlt : (b.block w : Nat) > x
      · obtain ⟨s₁, hs₁, hr₁, hg₁⟩ := decrementState_spec hN hr w (by omega) hh
        obtain ⟨s', hs', hr', hg'⟩ := ih hr₁ (by
          rw [Blocks.block_lower, Function.update_self]
          simp only
          omega)
        refine ⟨s', ?_, ?_, fun v => (hg' v).trans (hg₁ v)⟩
        · rw [if_pos hlt, hs₁]
          exact hs'
        · rw [Blocks.lowerTo, dif_pos (Fin.lt_def.mpr hlt)]
          exact hr'
      · refine ⟨s, by rw [if_neg hlt]; rfl, ?_, fun v => rfl⟩
        rw [Blocks.lowerTo, dif_neg (mt Fin.lt_def.mp hlt)]
        exact hr

/-- `MoveToState` with a valid handle and a state in range always succeeds, and
makes the one move of the partition. -/
theorem moveToState_repr (hN : N < 2 ^ 32) {s : SparseSet N K} {b : Blocks N K} (hr : Repr s b)
    (w : Fin N) (x : Fin K) :
    ∃ s', s.moveToState (s.handleAt w) x = some (true, s') ∧ Repr s' (b.moveTo w x) ∧
      SameGen s s' := by
  have hh := toNat_whoOf_handleAt hN s w
  obtain ⟨s₁, hs₁, hr₁, hg₁⟩ := raiseLoop_spec hN w hh x K hr (by omega)
  obtain ⟨s', hs', hr', hg'⟩ := lowerLoop_spec hN w hh x K hr₁ (by omega)
  refine ⟨s', ?_, hr', fun v => (hg' v).trans (hg₁ v)⟩
  have hge : ¬ (x : Nat) ≥ K := by omega
  simp only [moveToState, hge, if_false, isValid_handleAt hN s w, Bool.not_true,
    Bool.false_eq_true, Option.bind_eq_bind, hs₁, Option.bind_some, hs']

/-- `MoveToState` with a valid handle and a state in range always succeeds, and
moves that slot alone. -/
theorem moveToState_spec (hN : N < 2 ^ 32) {s : SparseSet N K} {b : Blocks N K} (hr : Repr s b)
    (w : Fin N) (x : Fin K) :
    ∃ s', s.moveToState (s.handleAt w) x = some (true, s') ∧
      Leads s' (Function.update b.block w x) s.gen := by
  obtain ⟨s', hs', hr', hg'⟩ := moveToState_repr hN hr w x
  exact ⟨s', hs', ⟨_, hr', b.block_moveTo w x⟩, funext hg'⟩

/-- `MoveToState` refuses a state out of range and an invalid handle. -/
theorem moveToState_refused (s : SparseSet N K) {h : UInt64} {state : Nat}
    (hbad : state ≥ K ∨ s.isValid h = false) : s.moveToState h state = some (false, s) := by
  unfold moveToState
  by_cases hge : state ≥ K
  · rw [if_pos hge]
    rfl
  · have hv : s.isValid h = false := hbad.resolve_left hge
    simp [hge, hv]

/-! ## push and pop -/

/-- `Push` with a valid handle makes one move of the partition and advances one
generation. -/
theorem push_repr (hN : N < 2 ^ 32) {s : SparseSet N K} {b : Blocks N K} (hr : Repr s b)
    (hK : 0 < K) (w : Fin N) :
    ∃ s', s.push (s.handleAt w) = some (true, s') ∧ Repr s' (b.moveTo w ⟨0, hK⟩) ∧
      s'.gen = Function.update s.gen w (s.gen w + 1) := by
  have hh := toNat_whoOf_handleAt hN s w
  obtain ⟨s₁, hs₁, hr₁, hg₁⟩ := moveToState_repr hN hr w ⟨0, hK⟩
  refine ⟨{ s₁ with
      sparse_ := Function.update s₁.sparse_ w
        { s₁.sparse_ w with generation_ := (s₁.sparse_ w).generation_ + 1 } },
    ?_, ⟨hr₁.dense, fun v => ?_, fun v => ?_, hr₁.cursor⟩, ?_⟩
  · simp only [push, isValid_handleAt hN s w, Bool.not_true, Bool.false_eq_true, if_false,
      Option.bind_eq_bind, hs₁, Option.bind_some, hh, FixedArray.get?_val, FixedArray.set?_val,
      Option.pure_def]
  · simp only [Function.update_apply]
    split_ifs with hv
    · rw [hv, hr₁.place]
    · exact hr₁.place v
  · simp only [Function.update_apply]
    split_ifs with hv
    · rw [hv, hr₁.state]
    · exact hr₁.state v
  · funext v
    have hgv : (s₁.sparse_ v).generation_ = s.gen v := hg₁ v
    simp only [gen, Function.update_apply] at hgv ⊢
    split_ifs with hv
    · rw [← hv, hgv]
    · exact hgv

/-- `Push` with a valid handle makes the slot idle and advances its
generation. -/
theorem push_spec (hN : N < 2 ^ 32) {s : SparseSet N K} {b : Blocks N K} (hr : Repr s b)
    (hK : 0 < K) (w : Fin N) :
    ∃ s', s.push (s.handleAt w) = some (true, s') ∧
      Leads s' (Function.update b.block w ⟨0, hK⟩) (Function.update s.gen w (s.gen w + 1)) := by
  obtain ⟨s', hs', hr', hg'⟩ := push_repr hN hr hK w
  exact ⟨s', hs', ⟨_, hr', b.block_moveTo w _⟩, hg'⟩

theorem push_refused (s : SparseSet N K) {h : UInt64} (hv : s.isValid h = false) :
    s.push h = some (false, s) := by
  simp [push, hv]

theorem getHandle_spec (hN : N < 2 ^ 32) (s : SparseSet N K) (w : Fin N) :
    s.getHandle (UInt32.ofNat w) = some (s.handleAt w) := by
  simp [getHandle, toNat_ofFin hN, handleAt, gen]

/-- `Pop` refuses a state out of range. -/
theorem pop_refused (s : SparseSet N K) {state : Nat} (hge : state ≥ K) :
    s.pop state = some (kInvalidHandle, s) := by
  simp [pop, hge]

/-- `Pop` finds nothing when no slot is idle. -/
theorem pop_empty {s : SparseSet N K} {b : Blocks N K} (hr : Repr s b) (hK : 0 < K) {state : Nat}
    (hlt : state < K) (hidle : ∀ w, (b.block w : Nat) ≠ 0) :
    s.pop state = some (kInvalidHandle, s) := by
  have hb1 : b.bound 1 = 0 := by
    by_contra hne
    have hpos : 0 < b.bound 1 := Nat.pos_of_ne_zero hne
    have hle := b.bound_le 1
    have hmem := (b.block_eq_iff (b.elem ⟨0, by omega⟩) ⟨0, hK⟩).mpr (by
      rw [Blocks.pos_elem]
      exact ⟨b.bound_zero.le, hpos⟩)
    exact hidle _ (congrArg Fin.val hmem)
  have hge : ¬ state ≥ K := by omega
  have h0 : s.cursor_.get? 0 = some 0 := by
    rw [FixedArray.get?_of_lt _ (by omega), hr.cursor, b.bound_zero]
    rfl
  have h1 : s.cursor_.get? 1 = some 0 := by
    rw [FixedArray.get?_of_lt _ (by omega), hr.cursor, hb1]
    rfl
  simp [pop, hge, h0, h1]

/-- What `Pop` reads when a slot is idle: a region `[0, c)` that is not empty, and the slot
that stands first in it. -/
theorem Repr.first_idle (hN : N < 2 ^ 32) {s : SparseSet N K} {b : Blocks N K} (hr : Repr s b)
    {w : Fin N} (hw : (b.block w : Nat) = 0) (hp : (b.pos w : Nat) = 0) :
    s.cursor_.get? 0 = some 0 ∧ (∃ c, s.cursor_.get? 1 = some c ∧ (0 : UInt32) ≠ c) ∧
      s.dense_.get? 0 = some (UInt32.ofNat w) := by
  have hK := (b.block w).isLt
  have hle := b.bound_le 1
  have hpos : 0 < b.bound 1 := by
    have hmem := (b.mem_block w).2
    rw [hw, Nat.zero_add] at hmem
    omega
  refine ⟨?_, ⟨UInt32.ofNat (b.bound 1), ?_, fun he => ?_⟩, ?_⟩
  · rw [FixedArray.get?_of_lt _ (by omega), hr.cursor, b.bound_zero]
    rfl
  · rw [FixedArray.get?_of_lt _ (by omega), hr.cursor]
  · have he' := congrArg UInt32.toNat he
    rw [toNat_ofNat32 (by omega)] at he'
    exact absurd he' (by simp only [UInt32.toNat_zero]; omega)
  · rw [← hp, FixedArray.get?_val, hr.dense, Blocks.elem_pos]

/-- `Pop` with a state in range and an idle slot hands out the current handle of the first
one, and makes the one move of the partition. -/
theorem pop_repr (hN : N < 2 ^ 32) {s : SparseSet N K} {b : Blocks N K} (hr : Repr s b) (x : Fin K)
    (hidle : ∃ w, (b.block w : Nat) = 0) :
    ∃ w s', (b.block w : Nat) = 0 ∧ (b.pos w : Nat) = 0 ∧
      s.pop x = some (s.handleAt w, s') ∧ Repr s' (b.moveTo w x) ∧ SameGen s s' := by
  obtain ⟨v, hv⟩ := hidle
  have hpos : 0 < b.bound 1 := by
    have hmem := (b.mem_block v).2
    rw [hv, Nat.zero_add] at hmem
    omega
  have hle := b.bound_le 1
  have hw : (b.block (b.elem ⟨0, by omega⟩) : Nat) = 0 := by
    have hmem := (b.block_eq_iff (b.elem ⟨0, by omega⟩) ⟨0, by omega⟩).mpr (by
      rw [Blocks.pos_elem]
      exact ⟨b.bound_zero.le, hpos⟩)
    exact congrArg Fin.val hmem
  have hp : (b.pos (b.elem ⟨0, by omega⟩) : Nat) = 0 := by rw [Blocks.pos_elem]
  obtain ⟨s', hs', hr', hg'⟩ := moveToState_repr hN hr (b.elem ⟨0, by omega⟩) x
  obtain ⟨h0, ⟨c, h1, hne⟩, hd⟩ := hr.first_idle hN hw hp
  refine ⟨_, s', hw, hp, ?_, hr', hg'⟩
  have hge : ¬ (x : Nat) ≥ K := by omega
  simp only [pop, hge, if_false, h0, h1, hne, UInt32.toNat_zero, hd, getHandle_spec hN, hs',
    Option.bind_eq_bind, Option.bind_some, Option.pure_def]

/-- `Pop` takes some idle slot, hands out its current handle, and moves it
alone. -/
theorem pop_spec (hN : N < 2 ^ 32) {s : SparseSet N K} {b : Blocks N K} (hr : Repr s b) (x : Fin K)
    (hidle : ∃ w, (b.block w : Nat) = 0) :
    ∃ w s', (b.block w : Nat) = 0 ∧ s.pop x = some (s.handleAt w, s') ∧
      Leads s' (Function.update b.block w x) s.gen := by
  obtain ⟨w, s', hw, -, hs', hr', hg'⟩ := pop_repr hN hr x hidle
  exact ⟨w, s', hw, hs', ⟨_, hr', b.block_moveTo w x⟩, funext hg'⟩

/-! ## listing a state -/

theorem collect_spec (hN : N < 2 ^ 32) {s : SparseSet N K} {b : Blocks N K} (hr : Repr s b)
    (turns i : Nat) (hi : i + turns ≤ N) :
    s.collect i turns =
      some ((List.ofFn fun j : Fin turns => b.elem ⟨i + j, by omega⟩).map s.handleAt) := by
  induction turns generalizing i with
  | zero => rfl
  | succ turns ih =>
      have hd : s.dense_.get? i = some (UInt32.ofNat (b.elem ⟨i, by omega⟩)) := by
        rw [FixedArray.get?_of_lt _ (by omega), hr.dense]
      rw [collect, hd]
      simp only [Option.bind_eq_bind, Option.bind_some, getHandle_spec hN, ih (i + 1) (by omega),
        List.ofFn_succ, List.map_cons, Option.pure_def, Option.some.injEq, List.cons.injEq]
      refine ⟨rfl, ?_⟩
      congr 2
      funext j
      simp only [Fin.val_succ]
      congr 2
      omega

/-- `GetIndicesInState` lists the current handles of the slots in a state. -/
theorem getIndicesInState_spec (hN : N < 2 ^ 32) {s : SparseSet N K} {b : Blocks N K}
    (hr : Repr s b) (x : Fin K) :
    s.getIndicesInState x = some ((b.members x).map s.handleAt) := by
  have hle := b.bound_le x
  have hle' := b.bound_le (x + 1)
  have hm := b.mono (show (x : Nat) ≤ x + 1 by omega)
  have hge : ¬ (x : Nat) ≥ K := by omega
  have h0 : s.cursor_.get? x = some (UInt32.ofNat (b.bound x)) := by
    rw [FixedArray.get?_of_lt _ (by omega), hr.cursor]
  have h1 : s.cursor_.get? (x + 1) = some (UInt32.ofNat (b.bound (x + 1))) := by
    rw [FixedArray.get?_of_lt _ (by omega), hr.cursor]
  simp only [getIndicesInState, hge, if_false, h0, h1, Option.bind_eq_bind, Option.bind_some]
  rw [toNat_ofNat32 (by omega), toNat_ofNat32 (by omega), collect_spec hN hr _ _ (by omega)]
  rfl

end SparseSet

end ServerStudy
