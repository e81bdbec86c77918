import ServerStudy.SparseSet.Repr

/-!
# ServerStudy.SparseSet.Table

What a `SparseSet` is for: a table that maps every slot index to a state and a
generation.  `Table.Step` says what each mutator does to the table, without
arrays or cursors, and the theorems connect the code to it:

* `wellFormed_of_reachable` — every reachable state satisfies the
  representation invariant, and no call on it touches memory out of range;
* `refines_table` — every call on a reachable state returns, and does to the
  table exactly what `Table.Step` allows; a state lists its slots exactly once.
-/

namespace ServerStudy

namespace SparseSet

variable {N K : Nat}

/-! ## the representation invariant -/

/-- The invariant of the three arrays. -/
structure WellFormed (s : SparseSet N K) : Prop where
  dense_perm : ∃ e : Equiv.Perm (Fin N), ∀ i, (s.dense_ i).toNat = e i
  dense_where : ∀ w : Fin N, (s.dense_.get? (s.sparse_ w).where_.toNat).map UInt32.toNat = some ↑w
  where_dense : ∀ i : Fin N,
    (s.sparse_.get? (s.dense_ i).toNat).map (fun slot => slot.where_.toNat) = some ↑i
  cursor_first : (s.cursor_ 0).toNat = 0
  cursor_last : (s.cursor_ (Fin.last K)).toNat = N
  cursor_mono : ∀ j k, j ≤ k → (s.cursor_ j).toNat ≤ (s.cursor_ k).toNat
  state_lt : ∀ w, (s.sparse_ w).state_ < K
  in_region : ∀ w, ∃ lo hi, s.cursor_.get? (s.sparse_ w).state_ = some lo ∧
    s.cursor_.get? ((s.sparse_ w).state_ + 1) = some hi ∧
    lo.toNat ≤ (s.sparse_ w).where_.toNat ∧ (s.sparse_ w).where_.toNat < hi.toNat

/-- Arrays that represent a partition are well formed. -/
theorem Repr.wellFormed (hN : N < 2 ^ 32) {s : SparseSet N K} {b : Blocks N K} (hr : Repr s b) :
    s.WellFormed := by
  have hplace : ∀ w, (s.sparse_ w).where_.toNat = b.pos w := fun w => by
    rw [hr.place, toNat_ofFin hN]
  have hcursor : ∀ k, (s.cursor_ k).toNat = b.bound k := fun k => by
    have hle := b.bound_le k
    rw [hr.cursor, toNat_ofNat32 (by omega)]
  refine ⟨⟨b.elem, fun i => by rw [hr.dense, toNat_ofFin hN]⟩, fun w => ?_, fun i => ?_, ?_, ?_,
    fun j k hjk => ?_, fun w => ?_, fun w => ?_⟩
  · rw [hplace, FixedArray.get?_val, hr.dense, Blocks.elem_pos, Option.map_some, toNat_ofFin hN]
  · rw [hr.dense, toNat_ofFin hN, FixedArray.get?_val, Option.map_some, hplace, Blocks.pos_elem]
  · rw [hcursor]
    exact b.bound_zero
  · rw [hcursor]
    exact b.bound_last _ (le_refl _)
  · rw [hcursor, hcursor]
    exact b.mono hjk
  · rw [hr.state]
    exact (b.block w).isLt
  · have hmem := b.mem_block w
    have hk := (b.block w).isLt
    refine ⟨s.cursor_ ⟨b.block w, by omega⟩, s.cursor_ ⟨b.block w + 1, by omega⟩, ?_, ?_, ?_, ?_⟩
    · rw [hr.state, FixedArray.get?_of_lt]
    · rw [hr.state, FixedArray.get?_of_lt]
    · rw [hplace, hcursor]
      exact hmem.1
    · rw [hplace, hcursor]
      exact hmem.2

/-- A wrapped `cursor_[nextState] - 1` cannot go unnoticed: the index it gives
is out of range. -/
theorem incrementState_underflow (hN : N < 2 ^ 32) (s : SparseSet N K) (h : UInt64) {slot : Slot}
    (hslot : s.sparse_.get? (whoOf h).toNat = some slot) (hlt : slot.state_ + 1 < K)
    (hzero : s.cursor_.get? (slot.state_ + 1) = some 0) : s.incrementState h = none := by
  have hge : ¬ slot.state_ ≥ K - 1 := by omega
  have hout : s.dense_.get? ((0 : UInt32) - 1).toNat = none := by
    rw [FixedArray.get?, dif_neg]
    rw [show ((0 : UInt32) - 1).toNat = 2 ^ 32 - 1 by decide]
    omega
  simp only [incrementState, hslot, hge, if_false, hzero, swapDense, hout, Option.bind_eq_bind,
    Option.bind_some, Option.bind_none, Option.bind_fun_none]

/-! ## the table -/

/-- State and generation of every slot index. -/
abbrev Table (N : Nat) := Fin N → Nat × UInt32

namespace Table

/-- The current handle of an index. -/
def handle (t : Table N) (w : Fin N) : UInt64 := handleOf (t w).2 (UInt32.ofNat w)

/-- What a call may reply, and what it does to the table. -/
def Step (K : Nat) (t : Table N) : Op → Reply → Table N → Prop
  | .moveToState h x, r, t' =>
      (∃ w, h = t.handle w ∧ x < K ∧ r = .flag true ∧ t' = Function.update t w (x, (t w).2)) ∨
      ((K ≤ x ∨ ∀ w, h ≠ t.handle w) ∧ r = .flag false ∧ t' = t)
  | .push h, r, t' =>
      (∃ w, h = t.handle w ∧ r = .flag true ∧ t' = Function.update t w (0, (t w).2 + 1)) ∨
      ((∀ w, h ≠ t.handle w) ∧ r = .flag false ∧ t' = t)
  | .pop x, r, t' =>
      (∃ w, x < K ∧ (t w).1 = 0 ∧ r = .handle (t.handle w) ∧ t.handle w ≠ kInvalidHandle ∧
        t' = Function.update t w (x, (t w).2)) ∨
      ((K ≤ x ∨ ∀ w, (t w).1 ≠ 0) ∧ r = .handle kInvalidHandle ∧ t' = t)

end Table

/-- The table a `SparseSet` stores. -/
def table (s : SparseSet N K) : Table N := fun w => ((s.sparse_ w).state_, s.gen w)

theorem table_handle (s : SparseSet N K) (w : Fin N) : s.table.handle w = s.handleAt w := rfl

theorem isValid_eq_false_iff (hN : N < 2 ^ 32) (s : SparseSet N K) (h : UInt64) :
    s.isValid h = false ↔ ∀ w, h ≠ s.handleAt w := by
  rw [← Bool.not_eq_true, isValid_iff hN, not_exists]

/-- The effect of an operation on the table, from its effect on states and
generations. -/
theorem Leads.table_eq {s s' : SparseSet N K} {b : Blocks N K} (hr : Repr s b) {w : Fin N}
    {x : Fin K} {g : UInt32} (hg : Function.update s.gen w g = s'.gen)
    (hl : ∃ b', Repr s' b' ∧ b'.block = Function.update b.block w x) :
    s'.table = Function.update s.table w (↑x, g) := by
  obtain ⟨b', hr', hb'⟩ := hl
  funext v
  simp only [table, ← hg, hr'.state, hb', Function.update_apply]
  split_ifs with hv
  · rfl
  · rw [hr.state]

/-- On a represented state every call returns, keeps the representation and
steps the table; a refused call leaves the arrays as they were. -/
theorem Repr.apply_spec (hN : N < 2 ^ 32) (hK : 0 < K) {s : SparseSet N K} {b : Blocks N K}
    (hr : Repr s b) (op : Op) :
    ∃ r s', s.apply op = some (r, s') ∧ (∃ b', Repr s' b') ∧
      Table.Step K s.table op r s'.table ∧
      (r = .flag false ∨ r = .handle kInvalidHandle → s' = s) := by
  cases op with
  | moveToState h x =>
      by_cases hbad : x ≥ K ∨ s.isValid h = false
      · refine ⟨.flag false, s, by simp [apply, moveToState_refused s hbad], ⟨b, hr⟩, .inr ⟨?_, rfl, rfl⟩,
          fun _ => rfl⟩
        exact hbad.imp id (isValid_eq_false_iff hN s h).mp
      · rw [not_or, Bool.not_eq_false] at hbad
        obtain ⟨w, rfl⟩ := (isValid_iff hN s h).mp hbad.2
        obtain ⟨s', hs', hl, hg⟩ := moveToState_spec hN hr w ⟨x, not_le.mp hbad.1⟩
        refine ⟨.flag true, s', by simp only [apply, hs', Option.map_some], ?_, .inl ⟨w, rfl, not_le.mp hbad.1, rfl, ?_⟩,
          by simp⟩
        · exact hl.imp fun _ h => h.1
        · exact Leads.table_eq hr (by rw [hg]; exact Function.update_eq_self _ _) hl
  | push h =>
      by_cases hbad : s.isValid h = false
      · exact ⟨.flag false, s, by simp [apply, push_refused s hbad], ⟨b, hr⟩,
          .inr ⟨(isValid_eq_false_iff hN s h).mp hbad, rfl, rfl⟩, fun _ => rfl⟩
      · rw [Bool.not_eq_false] at hbad
        obtain ⟨w, rfl⟩ := (isValid_iff hN s h).mp hbad
        obtain ⟨s', hs', hl, hg⟩ := push_spec hN hr hK w
        refine ⟨.flag true, s', by simp only [apply, hs', Option.map_some], ?_, .inl ⟨w, rfl, rfl, ?_⟩, by simp⟩
        · exact hl.imp fun _ h => h.1
        · exact Leads.table_eq hr hg.symm hl
  | pop x =>
      by_cases hbad : K ≤ x ∨ ∀ w, (b.block w : Nat) ≠ 0
      · refine ⟨.handle kInvalidHandle, s, ?_, ⟨b, hr⟩, .inr ⟨hbad.imp id fun h w => ?_, rfl, rfl⟩,
          fun _ => rfl⟩
        · rcases lt_or_ge x K with hx | hx
          · simp [apply, pop_empty hr hK hx (hbad.resolve_left (by omega))]
          · simp [apply, pop_refused s hx]
        · simp only [table, hr.state]
          exact h w
      · rw [not_or, not_forall] at hbad
        obtain ⟨w, s', hw, hs', hl, hg⟩ := pop_spec hN hr ⟨x, not_le.mp hbad.1⟩
          (hbad.2.imp fun _ h => not_not.mp h)
        have hne := (kInvalidHandle_ne_handleAt hN s w).symm
        refine ⟨.handle (s.handleAt w), s', by simp only [apply, hs', Option.map_some], ?_,
          .inl ⟨w, not_le.mp hbad.1, ?_, rfl, hne, ?_⟩, by simp [hne]⟩
        · exact hl.imp fun _ h => h.1
        · simp only [table, hr.state]
          exact hw
        · exact Leads.table_eq hr (by rw [hg]; exact Function.update_eq_self _ _) hl

/-- Every reachable state represents a partition. -/
theorem Reachable.repr (hN : N < 2 ^ 32) (hK : 0 < K) {s : SparseSet N K} (hs : Reachable s) :
    ∃ b, Repr s b := by
  induction hs with
  | new => exact ⟨_, repr_new hK⟩
  | apply op _ hop ih =>
      obtain ⟨b, hr⟩ := ih
      obtain ⟨r, s', hs', hb', -, -⟩ := hr.apply_spec hN hK op
      rw [hs', Option.some.injEq, Prod.mk.injEq] at hop
      rw [← hop.2]
      exact hb'

/-- **Representation invariant**: in every reachable state the three arrays are
well formed, and no call reads or writes out of range. -/
theorem wellFormed_of_reachable (hN : N < 2 ^ 32) (hK : 0 < K) (s : SparseSet N K)
    (hs : Reachable s) : s.WellFormed ∧ ∀ op, ∃ r s', s.apply op = some (r, s') := by
  obtain ⟨b, hr⟩ := hs.repr hN hK
  refine ⟨hr.wellFormed hN, fun op => ?_⟩
  obtain ⟨r, s', hs', -⟩ := hr.apply_spec hN hK op
  exact ⟨r, s', hs'⟩

/-- Slots 0 and 2 are handed out, slot 0 is pushed, slot 2 is brought down from state 3 to
state 1, and slot 1 is handed out. -/
theorem exists_moved : ∃ s : SparseSet 3 4, Reachable s ∧
    List.ofFn s.table = [(0, 1), (2, 0), (1, 0)] := by
  have hplay : ((new 3 4).play [.pop 2, .moveToState 2 1, .push 0, .pop 3, .pop 2]).map
      (fun x => List.ofFn x.1.table) = some [(0, 1), (2, 0), (1, 0)] := by decide +kernel
  obtain ⟨⟨s, log⟩, h, htable⟩ := Option.map_eq_some_iff.mp hplay
  have hrun : Run anyCall (new 3 4) s log := .of_play (fun _ _ _ _ => trivial) h
  exact ⟨s, hrun.reachable .new, htable⟩

theorem wellFormed_moved : ∃ s : SparseSet 3 4,
    List.ofFn s.table = [(0, 1), (2, 0), (1, 0)] ∧
    s.WellFormed ∧ ∀ op, ∃ r s', s.apply op = some (r, s') := by
  obtain ⟨s, hs, htable⟩ := exists_moved
  exact ⟨s, htable, wellFormed_of_reachable (by decide) (by decide) s hs⟩

/-- **Refinement**: on every reachable state each call returns and steps the
table as `Table.Step` says, a refused call changes nothing, and a state lists
the current handles of its slots exactly once each. -/
theorem refines_table (hN : N < 2 ^ 32) (hK : 0 < K) (s : SparseSet N K) (hs : Reachable s) :
    (∀ op, ∃ r s', s.apply op = some (r, s') ∧ Table.Step K s.table op r s'.table ∧
      (r = .flag false ∨ r = .handle kInvalidHandle → s' = s)) ∧
    (∀ h, s.isValid h = true ↔ ∃ w, h = s.table.handle w) ∧
    ∀ x < K, ∃ l, s.getIndicesInState x = some l ∧ l.Nodup ∧
      ∀ h, h ∈ l ↔ ∃ w, (s.table w).1 = x ∧ h = s.table.handle w := by
  obtain ⟨b, hr⟩ := hs.repr hN hK
  refine ⟨fun op => ?_, fun h => isValid_iff hN s h, fun x hx => ?_⟩
  · obtain ⟨r, s', hs', -, hstep, hsame⟩ := hr.apply_spec hN hK op
    exact ⟨r, s', hs', hstep, hsame⟩
  · refine ⟨_, getIndicesInState_spec hN hr ⟨x, hx⟩, ?_, fun h => ?_⟩
    · exact (b.nodup_members x).map fun v w hvw => handleAt_inj hN s hvw
    · rw [List.mem_map]
      constructor
      · rintro ⟨w, hw, rfl⟩
        have hbw := (b.mem_members w ⟨x, hx⟩).mp hw
        exact ⟨w, by rw [table, hr.state, hbw], rfl⟩
      · rintro ⟨w, hw, rfl⟩
        refine ⟨w, (b.mem_members w ⟨x, hx⟩).mpr (Fin.ext ?_), rfl⟩
        rw [← hr.state]
        exact hw

theorem refines_table_moved : ∃ s : SparseSet 3 4,
    List.ofFn s.table = [(0, 1), (2, 0), (1, 0)] ∧
    (∀ op, ∃ r s', s.apply op = some (r, s') ∧ Table.Step 4 s.table op r s'.table ∧
      (r = .flag false ∨ r = .handle kInvalidHandle → s' = s)) ∧
    (∀ h, s.isValid h = true ↔ ∃ w, h = s.table.handle w) ∧
    ∀ x < 4, ∃ l, s.getIndicesInState x = some l ∧ l.Nodup ∧
      ∀ h, h ∈ l ↔ ∃ w, (s.table w).1 = x ∧ h = s.table.handle w := by
  obtain ⟨s, hs, htable⟩ := exists_moved
  exact ⟨s, htable, refines_table (by decide) (by decide) s hs⟩

end SparseSet

end ServerStudy
