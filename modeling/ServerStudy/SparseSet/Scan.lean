import ServerStudy.SparseSet.Lifetime

/-!
# ServerStudy.SparseSet.Scan

`GetIndicesInState` while other threads move slots.

The call takes no lock, so between two turns of its loop a whole section of
`Acquire`, `MoveToState` or `Push` may run.  Such a section moves one slot, and
on the way it carries one other slot of the listed state from one edge of the
state's region to the other or into the gap (`SparseSet.carries`).

* `scan_alone` — with nobody in between, the loop lists the state;
* `listed_once` — a slot that keeps its state is listed once, as long as no
  section carries such a slot across the position the loop has reached.
-/

namespace ServerStudy

namespace SparseSet

variable {N K : Nat}

/-! ## what a section does to the other slots -/

/-- The slot a call moves, and the state it moves it to. -/
def target (s : SparseSet N K) : Op → Option (Nat × Nat)
  | .moveToState h z => if s.isValid h ∧ z < K then some ((whoOf h).toNat, z) else none
  | .push h => if s.isValid h then some ((whoOf h).toNat, 0) else none
  | .pop z => do
      let first ← s.cursor_.get? 0
      let last ← s.cursor_.get? 1
      let who ← s.dense_.get? first.toNat
      if z < K ∧ first ≠ last then some (who.toNat, z) else none

/-- The positions in `dense_` from and to which a call carries a slot of state `x` other
than the one it moves. -/
def carries (s : SparseSet N K) (x : Fin K) (op : Op) : Option (Nat × Nat) := do
  let (who, z) ← s.target op
  let slot ← s.sparse_.get? who
  let first := (s.cursor_ x.castSucc).toNat
  let last := (s.cursor_ x.succ).toNat
  if slot.state_ ≤ x ∧ x < z then
    some (last - 1, if slot.state_ = x then slot.where_.toNat else first - 1)
  else if z < x ∧ x ≤ slot.state_ then
    some (first, if slot.state_ = x then slot.where_.toNat else last)
  else
    none

/-! ## the loop among sections of other threads -/

/-- The variables of a call of `GetIndicesInState`, and the handles that have been valid and
in the listed state since it began. -/
structure Scan (N K : Nat) where
  set : SparseSet N K
  i : Nat
  result : List UInt64 := []
  finished : Bool := false
  since : UInt64 → Bool

namespace Scan

/-- `size_t i = cursor_[state]`. -/
def start (x : Fin K) (s : SparseSet N K) : Scan N K where
  set := s
  i := (s.cursor_ x.castSucc).toNat
  since h := s.getState h == some x.val

/-- One turn of the loop: read the bound, `dense_[i]` and the generation of that slot. -/
def iterate (x : Fin K) (c : Scan N K) : Option (Scan N K) := do
  let bound ← c.set.cursor_.get? (x + 1)
  if c.i < bound.toNat then
    let handle ← c.set.getHandle (← c.set.dense_.get? c.i)
    return { c with i := c.i + 1, result := c.result ++ [handle] }
  else
    return { c with finished := true }

/-- One section of another thread, under the mutex. -/
def interfere (x : Fin K) (c : Scan N K) (op : Op) : Option (Scan N K) := do
  let (_, set) ← c.set.apply op
  return { c with set, since := fun h => c.since h && (set.getState h == some x.val) }

/-- A section carries a slot that has kept its state across the position of the loop. -/
def crosses (x : Fin K) (c : Scan N K) (op : Op) : Bool :=
  match c.set.carries x op with
  | some (old, new) =>
      (decide (old < c.i) != decide (new < c.i)) &&
        ((c.set.dense_.get? old).bind c.set.getHandle).any c.since
  | none => false

/-- The loop has ended, or no slot that has kept its state is carried across its position. -/
def calm (x : Fin K) (c : Scan N K) (op : Op) : Bool := c.finished || !c.crosses x op

/-- The interleavings of one call that lists state `x`: sections with `ok` run between the
turns of its loop. -/
inductive Runs (x : Fin K) (ok : Scan N K → Op → Bool) : Scan N K → Prop where
  | start {s : SparseSet N K} : s.Reachable → Runs x ok (start x s)
  | iterate {c c' : Scan N K} :
      Runs x ok c → c.finished = false → c.iterate x = some c' → Runs x ok c'
  | interfere {c c' : Scan N K} (op : Op) :
      Runs x ok c → ok c op = true → c.interfere x op = some c' → Runs x ok c'

/-- Make the moves of a list: a turn of the loop for `none`, a section for a call. -/
def interleave (x : Fin K) (ok : Scan N K → Op → Bool) :
    Scan N K → List (Option Op) → Option (Scan N K)
  | c, [] => some c
  | c, none :: moves =>
      if c.finished then none else (c.iterate x).bind fun c => interleave x ok c moves
  | c, some op :: moves =>
      if ok c op then (c.interfere x op).bind fun c => interleave x ok c moves else none

variable {x : Fin K} {ok : Scan N K → Op → Bool} {c c' : Scan N K}

/-- They are an interleaving. -/
theorem Runs.interleave {moves : List (Option Op)} (hc : Runs x ok c)
    (h : c.interleave x ok moves = some c') : Runs x ok c' := by
  induction moves generalizing c with
  | nil =>
      obtain rfl := Option.some.inj h
      exact hc
  | cons move moves ih =>
      cases move with
      | none =>
          rw [Scan.interleave] at h
          split_ifs at h with hf
          obtain ⟨c₁, h₁, h⟩ := Option.bind_eq_some_iff.mp h
          exact ih (hc.iterate (Bool.eq_false_of_not_eq_true hf) h₁) h
      | some op =>
          rw [Scan.interleave] at h
          split_ifs at h with hok
          obtain ⟨c₁, h₁, h⟩ := Option.bind_eq_some_iff.mp h
          exact ih (hc.interfere op hok h₁) h

end Scan

/-! ## sections and the partition -/

variable {s s' : SparseSet N K} {b : Blocks N K}

/-- A handle is in a state exactly when it is the current one of a slot of that block. -/
theorem Repr.getState_iff (hN : N < 2 ^ 32) (hr : Repr s b) (h : UInt64) (x : Fin K) :
    s.getState h = some x.val ↔ ∃ w, h = s.handleAt w ∧ b.block w = x := by
  rw [getState]
  constructor
  · intro hx
    by_cases hv : s.isValid h
    · obtain ⟨w, rfl⟩ := (isValid_iff hN s h).mp hv
      refine ⟨w, rfl, Fin.ext ?_⟩
      rw [← hr.state]
      simpa [hv, toNat_whoOf_handleAt hN] using hx
    · simp [hv] at hx
  · rintro ⟨w, rfl, hw⟩
    simp [isValid_handleAt hN, toNat_whoOf_handleAt hN, hr.state, hw]

/-- What a call does to the partition: nothing, or one move, which keeps the generations of
the other slots. -/
theorem Repr.apply_moves (hN : N < 2 ^ 32) (hr : Repr s b) {op : Op} {r : Reply}
    (happly : s.apply op = some (r, s')) :
    s' = s ∨ ∃ (w : Fin N) (z : Fin K), s.target op = some (w.val, z.val) ∧
      Repr s' (b.moveTo w z) ∧ ∀ v ≠ w, s'.gen v = s.gen v := by
  cases op with
  | moveToState h z =>
      rcases Classical.em (z ≥ K ∨ s.isValid h = false) with hbad | hgood
      · simp [apply, moveToState_refused s hbad] at happly
        exact .inl happly.2.symm
      · rw [not_or, Bool.not_eq_false] at hgood
        have hz : z < K := not_le.mp hgood.1
        obtain ⟨w, rfl⟩ := (isValid_iff hN s h).mp hgood.2
        obtain ⟨s₁, hs₁, hr₁, hg₁⟩ := moveToState_repr hN hr w ⟨z, hz⟩
        simp only [apply, hs₁, Option.map_some, Option.some.injEq, Prod.mk.injEq] at happly
        obtain ⟨-, rfl⟩ := happly
        refine .inr ⟨w, ⟨z, hz⟩, ?_, hr₁, fun v _ => hg₁ v⟩
        simp [target, hgood.2, hz, toNat_whoOf_handleAt hN]
  | push h =>
      rcases Bool.eq_false_or_eq_true (s.isValid h) with hv | hv
      · obtain ⟨w, rfl⟩ := (isValid_iff hN s h).mp hv
        have hK : 0 < K := (b.block w).pos
        obtain ⟨s₁, hs₁, hr₁, hg₁⟩ := push_repr hN hr hK w
        simp only [apply, hs₁, Option.map_some, Option.some.injEq, Prod.mk.injEq] at happly
        obtain ⟨-, rfl⟩ := happly
        refine .inr ⟨w, ⟨0, hK⟩, ?_, hr₁, fun v hvw => ?_⟩
        · simp [target, hv, toNat_whoOf_handleAt hN]
        · rw [hg₁, Function.update_of_ne hvw]
      · simp [apply, push_refused s hv] at happly
        exact .inl happly.2.symm
  | pop z =>
      rcases Classical.em (K ≤ z ∨ ∀ w, (b.block w : Nat) ≠ 0) with hbad | hgood
      · have hpop : s.pop z = some (kInvalidHandle, s) := by
          rcases lt_or_ge z K with hz | hz
          · exact pop_empty hr (by omega) hz (hbad.resolve_left (by omega))
          · exact pop_refused s hz
        simp only [apply, hpop, Option.map_some, Option.some.injEq, Prod.mk.injEq] at happly
        exact .inl happly.2.symm
      · rw [not_or, not_forall] at hgood
        have hz : z < K := not_le.mp hgood.1
        obtain ⟨w, s₁, hw, hp, hs₁, hr₁, hg₁⟩ := pop_repr hN hr ⟨z, hz⟩
          (hgood.2.imp fun _ h => not_not.mp h)
        simp only [apply, hs₁, Option.map_some, Option.some.injEq, Prod.mk.injEq] at happly
        obtain ⟨-, rfl⟩ := happly
        refine .inr ⟨w, ⟨z, hz⟩, ?_, hr₁, fun v _ => hg₁ v⟩
        obtain ⟨h0, ⟨c, h1, hne⟩, hd⟩ := hr.first_idle hN hw hp
        simp [target, h0, h1, hne, hd, hz, toNat_ofFin hN]

/-- The positions a call carries a slot between, by the partition. -/
theorem Repr.carries_eq (hN : N < 2 ^ 32) (hr : Repr s b) {op : Op} {w : Fin N} {z : Fin K}
    (htarget : s.target op = some (w.val, z.val)) (x : Fin K) :
    s.carries x op = b.shift w z x := by
  have hcursor : ∀ k, (s.cursor_ k).toNat = b.bound k := fun k => by
    have hle := b.bound_le k
    rw [hr.cursor, toNat_ofNat32 (by omega)]
  have hplace : (s.sparse_ w).where_.toNat = b.pos w := by rw [hr.place, toNat_ofFin hN]
  simp only [carries, htarget, FixedArray.get?_val, Option.bind_eq_bind, Option.bind_some,
    hr.state, hcursor, hplace, Blocks.shift, Fin.val_castSucc, Fin.val_succ, Fin.ext_iff,
    Fin.le_def, Fin.lt_def]

theorem Repr.get_bound (hr : Repr s b) (x : Fin K) :
    s.cursor_.get? (x + 1) = some (UInt32.ofNat (b.bound (x + 1))) := by
  rw [FixedArray.get?_of_lt _ (by omega), hr.cursor]

/-! ## the run -/

namespace Scan

variable {x : Fin K} {c c' : Scan N K}

theorem start_i (hN : N < 2 ^ 32) (hr : Repr s b) (x : Fin K) : (start x s).i = b.bound x := by
  have hle := b.bound_le x
  simp [start, hr.cursor, toNat_ofNat32 (show b.bound x < 2 ^ 32 by omega)]

/-- A turn below the bound lists the slot that stands there. -/
theorem iterate_lt (hN : N < 2 ^ 32) (hr : Repr c.set b) (hi : c.i < b.bound (x + 1)) :
    c.iterate x = some { c with
      i := c.i + 1
      result := c.result ++
        [c.set.handleAt (b.elem ⟨c.i, lt_of_lt_of_le hi (b.bound_le _)⟩)] } := by
  have hle := b.bound_le (x + 1)
  have hd : c.set.dense_.get? c.i = some (UInt32.ofNat (b.elem ⟨c.i, by omega⟩)) := by
    rw [FixedArray.get?_of_lt _ (by omega), hr.dense]
  simp only [Scan.iterate, hr.get_bound, Option.bind_eq_bind, Option.bind_some,
    toNat_ofNat32 (show b.bound (x + 1) < 2 ^ 32 by omega), if_pos hi, hd, getHandle_spec hN,
    Option.pure_def]

/-- The turn at the bound ends the loop. -/
theorem iterate_ge (hN : N < 2 ^ 32) (hr : Repr c.set b) (hi : ¬ c.i < b.bound (x + 1)) :
    c.iterate x = some { c with finished := true } := by
  have hle := b.bound_le (x + 1)
  simp only [Scan.iterate, hr.get_bound, Option.bind_eq_bind, Option.bind_some,
    toNat_ofNat32 (show b.bound (x + 1) < 2 ^ 32 by omega), if_neg hi, Option.pure_def]

/-- With nobody in between, the turns that are left list what `collect` lists. -/
theorem interleave_turns (hN : N < 2 ^ 32) {ok : Scan N K → Op → Bool} (turns : Nat)
    (c : Scan N K) (hr : Repr c.set b) (hf : c.finished = false)
    (hi : c.i + turns = b.bound (x + 1)) :
    ∃ l, c.set.collect c.i turns = some l ∧
      c.interleave x ok (List.replicate (turns + 1) none) =
        some { c with i := c.i + turns, result := c.result ++ l, finished := true } := by
  induction turns generalizing c with
  | zero =>
      refine ⟨[], rfl, ?_⟩
      rw [List.replicate_one, interleave, if_neg (by simp [hf]), iterate_ge hN hr (by omega)]
      simp [interleave]
  | succ turns ih =>
      have hle := b.bound_le (x + 1)
      have hd : c.set.dense_.get? c.i = some (UInt32.ofNat (b.elem ⟨c.i, by omega⟩)) := by
        rw [FixedArray.get?_of_lt _ (by omega), hr.dense]
      have hturn := iterate_lt (c := c) (x := x) hN hr (by omega)
      obtain ⟨l, hl, hrest⟩ := ih { c with
        i := c.i + 1
        result := c.result ++ [c.set.handleAt (b.elem ⟨c.i, by omega⟩)] } hr hf (by simp only; omega)
      refine ⟨c.set.handleAt (b.elem ⟨c.i, by omega⟩) :: l, ?_, ?_⟩
      · simp only at hl
        rw [collect, hd]
        simp [getHandle_spec hN, hl]
      · rw [List.replicate_succ, interleave, if_neg (by simp [hf]), hturn, Option.bind_some, hrest]
        simp [Nat.add_assoc, Nat.add_comm 1 turns]

/-- **Alone**: with nobody in between, the turns return what `getIndicesInState` returns. -/
theorem scan_alone (hN : N < 2 ^ 32) (hs : s.Reachable) (x : Fin K) :
    ∃ l turns c, s.getIndicesInState x = some l ∧
      (start x s).interleave x (calm x) (List.replicate turns none) = some c ∧
      c.finished = true ∧ c.result = l := by
  obtain ⟨b, hr⟩ := hs.repr hN x.pos
  have hle := b.bound_le (x + 1)
  have hm := b.mono (show (x : Nat) ≤ x + 1 by omega)
  have hi := start_i hN hr x
  obtain ⟨l, hl, hturns⟩ := interleave_turns (x := x) hN (b.bound (x + 1) - b.bound x)
    (start x s) hr rfl (by omega)
  refine ⟨l, _, _, ?_, hturns, rfl, List.nil_append l⟩
  have hge : ¬ (x : Nat) ≥ K := by omega
  have hfirst : s.cursor_.get? x = some (UInt32.ofNat (b.bound x)) := by
    rw [FixedArray.get?_of_lt _ (by omega), hr.cursor]
  rw [hi] at hl
  simp only [getIndicesInState, if_neg hge, hfirst, hr.get_bound, Option.bind_eq_bind,
    Option.bind_some]
  rw [toNat_ofNat32 (by omega), toNat_ofNat32 (by omega)]
  exact hl

/-- What a call has done so far: the handles that have kept state `x` are those of slots in
it, and each is listed once if its slot stands below the position of the loop, and not yet
otherwise. -/
def Inv (x : Fin K) (c : Scan N K) : Prop :=
  ∃ b, Repr c.set b ∧ ∀ h, c.since h = true → ∃ w, h = c.set.handleAt w ∧ b.block w = x ∧
    c.result.count h = if c.finished = true ∨ (b.pos w : Nat) < c.i then 1 else 0

theorem inv_start (hN : N < 2 ^ 32) {s : SparseSet N K} {b : Blocks N K} (hr : Repr s b) :
    (start x s).Inv x := by
  refine ⟨b, hr, fun h hs => ?_⟩
  obtain ⟨w, rfl, hw⟩ := (hr.getState_iff hN h x).mp (by simpa [start] using hs)
  have hmem := ((b.block_eq_iff w x).mp hw).1
  refine ⟨w, rfl, hw, ?_⟩
  rw [start_i hN hr, if_neg (by simp [start, hmem])]
  rfl

/-- One turn lists the slot at the position of the loop, and the last turn has all slots of
the state below that position. -/
theorem Inv.iterate (hN : N < 2 ^ 32) (hc : c.Inv x) (hf : c.finished = false)
    (hstep : c.iterate x = some c') : c'.Inv x := by
  obtain ⟨b, hr, hlisted⟩ := hc
  have hle := b.bound_le (x + 1)
  by_cases hi : c.i < b.bound (x + 1)
  · rw [iterate_lt hN hr hi, Option.some.injEq] at hstep
    subst hstep
    refine ⟨b, hr, fun h hs => ?_⟩
    obtain ⟨w, rfl, hw, hcount⟩ := hlisted h hs
    refine ⟨w, rfl, hw, ?_⟩
    have hread : c.set.handleAt (b.elem ⟨c.i, by omega⟩) = c.set.handleAt w ↔
        (b.pos w : Nat) = c.i := by
      constructor
      · intro he
        rw [← handleAt_inj hN c.set he, Blocks.pos_elem]
      · intro hp
        simp only [← hp, Fin.eta, Blocks.elem_pos]
    rw [List.count_append, hcount, List.count_singleton]
    simp only [hf, beq_iff_eq, hread]
    grind
  · rw [iterate_ge hN hr hi, Option.some.injEq] at hstep
    subst hstep
    refine ⟨b, hr, fun h hs => ?_⟩
    obtain ⟨w, rfl, hw, hcount⟩ := hlisted h hs
    have hmem := ((b.block_eq_iff w x).mp hw).2
    refine ⟨w, rfl, hw, ?_⟩
    rw [hcount, if_pos (.inr (by omega)), if_pos (.inl rfl)]

/-- A section that carries no such slot across the position of the loop leaves each on its
side of it. -/
theorem Inv.interfere (hN : N < 2 ^ 32) (hc : c.Inv x) {op : Op}
    (hop : c.calm x op = true)
    (hstep : c.interfere x op = some c') : c'.Inv x := by
  obtain ⟨b, hr, hlisted⟩ := hc
  obtain ⟨⟨r, set⟩, happly, hc'⟩ := Option.bind_eq_some_iff.mp hstep
  simp only [Option.pure_def, Option.some.injEq] at hc'
  subst hc'
  rcases hr.apply_moves hN happly with rfl | ⟨u, z, htarget, hr', hg⟩
  · refine ⟨b, hr, fun h hs => hlisted h ?_⟩
    simp only [Bool.and_eq_true] at hs
    exact hs.1
  · refine ⟨_, hr', fun h hs => ?_⟩
    simp only [Bool.and_eq_true, beq_iff_eq] at hs
    obtain ⟨w, hw, hblock, hcount⟩ := hlisted h hs.1
    obtain ⟨w', hw', hblock'⟩ := (hr'.getState_iff hN h x).mp hs.2
    obtain rfl : w' = w := Fin.ext (by
      rw [← toNat_whoOf_handleAt hN c.set w, ← hw, hw', toNat_whoOf_handleAt hN])
    refine ⟨w', hw', hblock', hcount.trans ?_⟩
    rcases eq_or_ne w' u with rfl | hne
    · -- the slot moved has kept its state, so it has not moved
      rw [Blocks.block_moveTo, Function.update_self] at hblock'
      rw [hblock', ← hblock, Blocks.moveTo_self]
    · have hpos := b.pos_moveTo hne z
      rw [hblock] at hpos
      rcases Bool.eq_false_or_eq_true c.finished with hf | hf
      · rw [if_pos (.inl hf), if_pos (.inl hf)]
      · have hcross : c.crosses x op = false := by simpa [calm, hf] using hop
        rw [crosses, hr.carries_eq hN htarget] at hcross
        rcases hshift : b.shift u z x with _ | ⟨old, new⟩ <;> rw [hshift] at hpos hcross
        · rw [hpos]
        · simp only at hpos
          by_cases hold : (b.pos w' : Nat) = old
          · -- the slot carried is this one, and it has kept its state
            have hd : c.set.dense_.get? old = some (UInt32.ofNat w') := by
              rw [← hold, FixedArray.get?_val, hr.dense, Blocks.elem_pos]
            rw [if_pos hold] at hpos
            simp only [hd, Option.bind_some, getHandle_spec hN, ← hw, Option.any_some, hs.1,
              Bool.and_true, bne_eq_false_iff_eq, decide_eq_decide] at hcross
            simp only [hpos, hold, hcross]
          · rw [if_neg hold] at hpos
            rw [hpos]

theorem Runs.inv (hN : N < 2 ^ 32) (hc : Runs x (calm x) c) : c.Inv x := by
  induction hc with
  | start hs =>
      obtain ⟨b, hr⟩ := hs.repr hN x.pos
      exact inv_start hN hr
  | iterate _ hf hstep ih => exact ih.iterate hN hf hstep
  | interfere _ _ hop hstep ih => exact ih.interfere hN hop hstep

/-- **Nobody missed**: however the sections of other threads run between the turns of the
loop, if none of them carries a slot that has kept the listed state across the position the
loop has reached, then every handle that was in that state from before the call until after
it is listed exactly once. -/
theorem listed_once (hN : N < 2 ^ 32) (x : Fin K) (c : Scan N K)
    (hc : Runs x (calm x) c) (hdone : c.finished = true) (h : UInt64) (hs : c.since h = true) :
    c.result.count h = 1 := by
  obtain ⟨b, -, hlisted⟩ := hc.inv hN
  obtain ⟨w, -, -, hcount⟩ := hlisted h hs
  rw [hcount, if_pos (.inl hdone)]

/-- Two connected slots, the second of which begins to disconnect before the loop starts. -/
theorem listed_once_calm :
    ∃ c : Scan 2 4, c.finished = true ∧ c.since 0 = true ∧ c.result.count 0 = 1 := by
  have hplay : (((new 2 4).play [.moveToState 1 2, .moveToState 0 2, .pop 1, .pop 1]).bind fun s =>
      (start 2 s.1).interleave 2 (calm 2) [some (.moveToState 1 3), none, none]).map
        (fun c => (c.finished, c.since 0)) = some (true, true) := by decide +kernel
  obtain ⟨c, h, hc⟩ := Option.map_eq_some_iff.mp hplay
  obtain ⟨⟨s, log⟩, hs, h⟩ := Option.bind_eq_some_iff.mp h
  obtain ⟨hdone, hsince⟩ := Prod.mk.inj hc
  have hrun : Run anyCall (new 2 4) s log := .of_play (fun _ _ _ _ => trivial) hs
  exact ⟨c, hdone, hsince, listed_once (by decide) 2 c
    (.interleave (.start (hrun.reachable .new)) h) hdone 0 hsince⟩

/-- Slot 0 stays connected throughout and is missed: it stands behind slot 1, which begins to
disconnect when the loop has just passed it. -/
theorem listed_never :
    ¬ ∀ (c : Scan 2 4), Runs 2 (fun _ _ => true) c → c.finished = true →
      ∀ h, c.since h = true → c.result.count h = 1 := by
  intro hall
  have hplay : (((new 2 4).play [.moveToState 1 2, .moveToState 0 2, .pop 1, .pop 1]).bind fun s =>
      (start 2 s.1).interleave 2 (fun _ _ => true) [none, some (.moveToState 1 3), none]).map
        (fun c => (c.finished, c.since 0, c.result.count 0)) = some (true, true, 0) := by
    decide +kernel
  obtain ⟨c, h, hc⟩ := Option.map_eq_some_iff.mp hplay
  obtain ⟨⟨s, log⟩, hs, h⟩ := Option.bind_eq_some_iff.mp h
  simp only [Prod.mk.injEq] at hc
  have hrun : Run anyCall (new 2 4) s log := .of_play (fun _ _ _ _ => trivial) hs
  have hone := hall c (.interleave (.start (hrun.reachable .new)) h) hc.1 0 hc.2.1
  rw [hc.2.2] at hone
  exact absurd hone (by decide)

end Scan

end SparseSet

end ServerStudy
