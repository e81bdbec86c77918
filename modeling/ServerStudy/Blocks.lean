import Mathlib.Data.List.FinRange
import Mathlib.Logic.Equiv.Basic
import Mathlib.Order.Fin.Basic
import Mathlib.Order.Monotone.Basic
import Mathlib.Tactic.Common

/-!
# ServerStudy.Blocks

A permuted range cut into consecutive blocks.

`N` elements stand in some order, and the positions `0 .. N-1` are cut into
`K` consecutive blocks by non-decreasing bounds; every element belongs to the
block its position falls in.  The one move is to shift an element into the
neighbouring block, by swapping it with the last (or first) element of its own
block and moving the shared bound by one:

* `raise` — into the next block;
* `lower` — into the previous block.

The invariant is carried by the structure, so both moves are total functions
on well-formed partitions; what they change is one element's block
(`block_raise`, `block_lower`) and nothing else.
-/

namespace ServerStudy

/-- `N` elements in some order, cut into `K` consecutive blocks. -/
structure Blocks (N K : Nat) where
  /-- The element standing at a position. -/
  elem : Equiv.Perm (Fin N)
  /-- The block an element belongs to. -/
  block : Fin N → Fin K
  /-- Block `k` occupies the positions from `bound k` up to `bound (k + 1)`. -/
  bound : Nat → Nat
  bound_zero : bound 0 = 0
  bound_last : ∀ k, K ≤ k → bound k = N
  mono : Monotone bound
  mem_block : ∀ w, bound (block w) ≤ elem.symm w ∧ (elem.symm w : Nat) < bound (block w + 1)

namespace Blocks

variable {N K : Nat}

/-- Where an element stands. -/
def pos (b : Blocks N K) (w : Fin N) : Fin N := b.elem.symm w

@[simp] theorem elem_pos (b : Blocks N K) (w : Fin N) : b.elem (b.pos w) = w :=
  b.elem.apply_symm_apply w

@[simp] theorem pos_elem (b : Blocks N K) (i : Fin N) : b.pos (b.elem i) = i :=
  b.elem.symm_apply_apply i

theorem bound_le (b : Blocks N K) (k : Nat) : b.bound k ≤ N :=
  calc
    b.bound k ≤ b.bound (max k K) := b.mono (le_max_left k K)
    _ = N := b.bound_last _ (le_max_right k K)

/-- An element belongs to block `k` exactly when it stands between the bounds
of `k`. -/
theorem block_eq_iff (b : Blocks N K) (w : Fin N) (k : Fin K) :
    b.block w = k ↔ b.bound k ≤ b.pos w ∧ (b.pos w : Nat) < b.bound (k + 1) := by
  constructor
  · intro h
    rw [← h]
    exact b.mem_block w
  · rintro ⟨hle, hlt⟩
    obtain ⟨hle', hlt'⟩ := b.mem_block w
    change b.bound (b.block w) ≤ b.pos w at hle'
    change (b.pos w : Nat) < b.bound (b.block w + 1) at hlt'
    rcases lt_trichotomy (b.block w : Nat) k with h | h | h
    · have hm := b.mono (show (b.block w : Nat) + 1 ≤ k from h)
      omega
    · exact Fin.ext h
    · have hm := b.mono (show (k : Nat) + 1 ≤ b.block w from h)
      omega

/-! ## The initial partition -/

/-- Everything in block `0`, in the natural order. -/
def init (N K : Nat) (hK : 0 < K) : Blocks N K where
  elem := Equiv.refl _
  block := fun _ => ⟨0, hK⟩
  bound := fun k => if k = 0 then 0 else N
  bound_zero := by simp
  bound_last := fun k hk => by rw [if_neg (by omega)]
  mono := fun j k h => by
    dsimp only
    split <;> split <;> omega
  mem_block := fun w => by
    refine ⟨by simp, ?_⟩
    rw [if_neg (by omega)]
    exact w.isLt

/-! ## Moving an element into a neighbouring block -/

/-- The position of the last element of the block that `w` stands in. -/
theorem last_lt (b : Blocks N K) (w : Fin N) : b.bound (b.block w + 1) - 1 < N := by
  have hlt := (b.mem_block w).2
  have hle := b.bound_le (b.block w + 1)
  omega

/-- The position of the first element of the block that `w` stands in. -/
theorem first_lt (b : Blocks N K) (w : Fin N) : b.bound (b.block w) < N :=
  lt_of_le_of_lt (b.mem_block w).1 (b.elem.symm w).isLt

/-- Swapping two positions of one block keeps every element in its block. -/
theorem mem_block_swap (b : Blocks N K) (w v : Fin N) (q : Fin N)
    (hq : b.bound (b.block w) ≤ q ∧ (q : Nat) < b.bound (b.block w + 1)) :
    b.bound (b.block v) ≤ Equiv.swap (b.pos w) q (b.pos v) ∧
      (Equiv.swap (b.pos w) q (b.pos v) : Nat) < b.bound (b.block v + 1) := by
  have hw := b.mem_block w
  have hv := b.mem_block v
  rw [Equiv.swap_apply_def]
  split_ifs with hvw hvq
  · have hvw' : v = w := by simpa using congrArg b.elem hvw
    subst hvw'
    exact hq
  · have hbl : b.block v = b.block w := by
      rw [block_eq_iff, hvq]
      exact hq
    rw [hbl]
    exact hw
  · exact hv

/-- Move `w` into the next block: swap it with the last element of its block
and take that position from the block. -/
def raise (b : Blocks N K) (w : Fin N) (h : (b.block w : Nat) + 1 < K) : Blocks N K where
  elem := (Equiv.swap (b.pos w) ⟨b.bound (b.block w + 1) - 1, b.last_lt w⟩).trans b.elem
  block := Function.update b.block w ⟨b.block w + 1, h⟩
  bound := Function.update b.bound (b.block w + 1) (b.bound (b.block w + 1) - 1)
  bound_zero := by rw [Function.update_of_ne (by omega), b.bound_zero]
  bound_last := fun k hk => by rw [Function.update_of_ne (by omega), b.bound_last k hk]
  mono := by
    have hw := b.mem_block w
    intro j k hjk
    have hm := b.mono hjk
    rcases eq_or_ne j (b.block w + 1 : Nat) with rfl | hj <;>
      rcases eq_or_ne k (b.block w + 1 : Nat) with rfl | hk
    · exact le_refl _
    · rw [Function.update_self, Function.update_of_ne hk]
      omega
    · have hm' := b.mono (show j ≤ b.block w by omega)
      rw [Function.update_self, Function.update_of_ne hj]
      omega
    · rw [Function.update_of_ne hj, Function.update_of_ne hk]
      exact hm
  mem_block := fun v => by
    have hw := b.mem_block w
    have hq : b.bound (b.block w) ≤ b.bound (b.block w + 1) - 1 ∧
        b.bound (b.block w + 1) - 1 < b.bound (b.block w + 1) := by omega
    have hsw := b.mem_block_swap w v ⟨_, b.last_lt w⟩ hq
    have hpos : ((Equiv.swap (b.pos w) ⟨b.bound (b.block w + 1) - 1, b.last_lt w⟩).trans
        b.elem).symm v = Equiv.swap (b.pos w) ⟨_, b.last_lt w⟩ (b.pos v) := rfl
    rw [hpos]
    rcases eq_or_ne v w with rfl | hvw
    · rw [Equiv.swap_apply_left, Function.update_self]
      have hm := b.mono (show (b.block v : Nat) + 1 ≤ b.block v + 1 + 1 by omega)
      rw [Function.update_self, Function.update_of_ne (by simp)]
      exact ⟨le_refl _, by simp only; omega⟩
    · rw [Function.update_of_ne hvw]
      -- `v` no longer stands at the position that is taken from the block of `w`
      have hne : (Equiv.swap (b.pos w) ⟨_, b.last_lt w⟩ (b.pos v) : Nat) ≠
          b.bound (b.block w + 1) - 1 := by
        intro he
        have he' : Equiv.swap (b.pos w) ⟨_, b.last_lt w⟩ (b.pos v) =
            ⟨b.bound (b.block w + 1) - 1, b.last_lt w⟩ := Fin.ext he
        rw [Equiv.swap_apply_eq_iff, Equiv.swap_apply_right] at he'
        exact hvw (by simpa using congrArg b.elem he')
      constructor
      · rcases eq_or_ne (b.block v : Nat) (b.block w + 1) with hb | hb
        · rw [hb, Function.update_self]
          rw [hb] at hsw
          omega
        · rw [Function.update_of_ne hb]
          exact hsw.1
      · rcases eq_or_ne (b.block v : Nat) (b.block w) with hb | hb
        · rw [hb, Function.update_self]
          rw [hb] at hsw
          omega
        · rw [Function.update_of_ne (by omega)]
          exact hsw.2

/-- Move `w` into the previous block: swap it with the first element of its
block and give that position to the previous block. -/
def lower (b : Blocks N K) (w : Fin N) (h : 0 < (b.block w : Nat)) : Blocks N K where
  elem := (Equiv.swap (b.pos w) ⟨b.bound (b.block w), b.first_lt w⟩).trans b.elem
  block := Function.update b.block w ⟨b.block w - 1, by omega⟩
  bound := Function.update b.bound (b.block w) (b.bound (b.block w) + 1)
  bound_zero := by rw [Function.update_of_ne (by omega), b.bound_zero]
  bound_last := fun k hk => by rw [Function.update_of_ne (by omega), b.bound_last k hk]
  mono := by
    have hw := b.mem_block w
    intro j k hjk
    have hm := b.mono hjk
    rcases eq_or_ne j (b.block w : Nat) with rfl | hj <;>
      rcases eq_or_ne k (b.block w : Nat) with rfl | hk
    · exact le_refl _
    · have hm' := b.mono (show (b.block w : Nat) + 1 ≤ k by omega)
      rw [Function.update_self, Function.update_of_ne hk]
      omega
    · rw [Function.update_self, Function.update_of_ne hj]
      omega
    · rw [Function.update_of_ne hj, Function.update_of_ne hk]
      exact hm
  mem_block := fun v => by
    have hw := b.mem_block w
    have hq : b.bound (b.block w) ≤ b.bound (b.block w) ∧
        b.bound (b.block w) < b.bound (b.block w + 1) := by omega
    have hsw := b.mem_block_swap w v ⟨_, b.first_lt w⟩ hq
    have hpos : ((Equiv.swap (b.pos w) ⟨b.bound (b.block w), b.first_lt w⟩).trans
        b.elem).symm v = Equiv.swap (b.pos w) ⟨_, b.first_lt w⟩ (b.pos v) := rfl
    rw [hpos]
    rcases eq_or_ne v w with rfl | hvw
    · have hm := b.mono (show (b.block v : Nat) - 1 ≤ b.block v by omega)
      rw [Equiv.swap_apply_left, Function.update_self]
      have hs : (b.block v : Nat) - 1 + 1 = b.block v := by omega
      simp only [hs, Function.update_self]
      rw [Function.update_of_ne (by omega)]
      exact ⟨hm, by omega⟩
    · rw [Function.update_of_ne hvw]
      have hne : (Equiv.swap (b.pos w) ⟨_, b.first_lt w⟩ (b.pos v) : Nat) ≠
          b.bound (b.block w) := by
        intro he
        have he' : Equiv.swap (b.pos w) ⟨_, b.first_lt w⟩ (b.pos v) =
            ⟨b.bound (b.block w), b.first_lt w⟩ := Fin.ext he
        rw [Equiv.swap_apply_eq_iff, Equiv.swap_apply_right] at he'
        exact hvw (by simpa using congrArg b.elem he')
      constructor
      · rcases eq_or_ne (b.block v : Nat) (b.block w) with hb | hb
        · rw [hb, Function.update_self]
          rw [hb] at hsw
          omega
        · rw [Function.update_of_ne hb]
          exact hsw.1
      · rcases eq_or_ne (b.block v + 1 : Nat) (b.block w) with hb | hb
        · rw [hb, Function.update_self]
          rw [hb] at hsw
          omega
        · rw [Function.update_of_ne hb]
          exact hsw.2

@[simp] theorem block_raise (b : Blocks N K) (w : Fin N) (h : (b.block w : Nat) + 1 < K) :
    (b.raise w h).block = Function.update b.block w ⟨b.block w + 1, h⟩ := rfl

@[simp] theorem block_lower (b : Blocks N K) (w : Fin N) (h : 0 < (b.block w : Nat)) :
    (b.lower w h).block = Function.update b.block w ⟨b.block w - 1, by omega⟩ := rfl

/-- Raising `w` swaps it with the last element of its block. -/
theorem pos_raise (b : Blocks N K) (w : Fin N) (h : (b.block w : Nat) + 1 < K) (v : Fin N) :
    (b.raise w h).pos v = Equiv.swap (b.pos w) ⟨_, b.last_lt w⟩ (b.pos v) := rfl

/-- Lowering `w` swaps it with the first element of its block. -/
theorem pos_lower (b : Blocks N K) (w : Fin N) (h : 0 < (b.block w : Nat)) (v : Fin N) :
    (b.lower w h).pos v = Equiv.swap (b.pos w) ⟨_, b.first_lt w⟩ (b.pos v) := rfl

theorem pos_injective (b : Blocks N K) : Function.Injective b.pos := b.elem.symm.injective

/-! ## Moving an element to any block

The two moves are repeated until the element stands in the block asked for.
On the way it displaces at most one element of each other block. -/

/-- Raise `w` towards block `x`, for at most `turns` turns. -/
def raiseTo (w : Fin N) (x : Fin K) : Nat → Blocks N K → Blocks N K
  | 0, b => b
  | turns + 1, b =>
      if h : b.block w < x then raiseTo w x turns (b.raise w (by omega)) else b

/-- Lower `w` towards block `x`, for at most `turns` turns. -/
def lowerTo (w : Fin N) (x : Fin K) : Nat → Blocks N K → Blocks N K
  | 0, b => b
  | turns + 1, b =>
      if h : x < b.block w then lowerTo w x turns (b.lower w (by omega)) else b

/-- Move `w` to block `x`. -/
def moveTo (b : Blocks N K) (w : Fin N) (x : Fin K) : Blocks N K :=
  lowerTo w x K (raiseTo w x K b)

theorem raiseTo_of_le {w : Fin N} {x : Fin K} {b : Blocks N K} (h : x ≤ b.block w) (turns : Nat) :
    raiseTo w x turns b = b := by
  cases turns with
  | zero => rfl
  | succ turns => rw [raiseTo, dif_neg (not_lt.mpr h)]

theorem lowerTo_of_le {w : Fin N} {x : Fin K} {b : Blocks N K} (h : b.block w ≤ x) (turns : Nat) :
    lowerTo w x turns b = b := by
  cases turns with
  | zero => rfl
  | succ turns => rw [lowerTo, dif_neg (not_lt.mpr h)]

theorem block_raiseTo (w : Fin N) (x : Fin K) (turns : Nat) (b : Blocks N K)
    (ht : (x : Nat) - b.block w < turns) :
    (raiseTo w x turns b).block = Function.update b.block w (max (b.block w) x) := by
  induction turns generalizing b with
  | zero => omega
  | succ turns ih =>
      rw [raiseTo]
      split_ifs with hlt
      · have hx : max (⟨b.block w + 1, by omega⟩ : Fin K) x = max (b.block w) x := by
          rw [max_eq_right hlt.le, max_eq_right (Fin.mk_le_of_le_val hlt)]
        rw [ih _ (by rw [block_raise, Function.update_self]; simp only; omega), block_raise,
          Function.update_idem, Function.update_self, hx]
      · rw [max_eq_left (not_lt.mp hlt), Function.update_eq_self]

theorem block_lowerTo (w : Fin N) (x : Fin K) (turns : Nat) (b : Blocks N K)
    (ht : (b.block w : Nat) - x < turns) :
    (lowerTo w x turns b).block = Function.update b.block w (min (b.block w) x) := by
  induction turns generalizing b with
  | zero => omega
  | succ turns ih =>
      rw [lowerTo]
      split_ifs with hlt
      · have hx : min (⟨b.block w - 1, by omega⟩ : Fin K) x = min (b.block w) x := by
          rw [min_eq_right hlt.le, min_eq_right (Fin.le_def.mpr (by simp only; omega))]
        rw [ih _ (by rw [block_lower, Function.update_self]; simp only; omega), block_lower,
          Function.update_idem, Function.update_self, hx]
      · rw [min_eq_left (not_lt.mp hlt), Function.update_eq_self]

/-- A move changes the block of one element, and to what was asked for. -/
theorem block_moveTo (b : Blocks N K) (w : Fin N) (x : Fin K) :
    (b.moveTo w x).block = Function.update b.block w x := by
  have hup : (raiseTo w x K b).block = Function.update b.block w (max (b.block w) x) :=
    block_raiseTo w x K b (by omega)
  rw [moveTo, block_lowerTo w x K _ (by omega), hup, Function.update_idem, Function.update_self,
    min_eq_right (le_max_right _ _)]

/-- The position of block `x` that moving `w` to block `z` empties, and the one its element
is carried to: the last element of every block `w` leaves or passes on the way up, the first
on the way down. -/
def shift (b : Blocks N K) (w : Fin N) (z x : Fin K) : Option (Nat × Nat) :=
  if b.block w ≤ x ∧ x < z then
    some (b.bound (x + 1) - 1, if b.block w = x then b.pos w else b.bound x - 1)
  else if z < x ∧ x ≤ b.block w then
    some (b.bound x, if b.block w = x then b.pos w else b.bound (x + 1))
  else
    none

/-- Only an element of the block of `w` stands where that block ends. -/
theorem block_eq_of_pos_eq_last (b : Blocks N K) {v w : Fin N}
    (h : (b.pos v : Nat) = b.bound (b.block w + 1) - 1) : b.block v = b.block w := by
  have hw := b.mem_block w
  rw [block_eq_iff, h]
  omega

/-- Only an element of the block of `w` stands where that block begins. -/
theorem block_eq_of_pos_eq_first (b : Blocks N K) {v w : Fin N}
    (h : (b.pos v : Nat) = b.bound (b.block w)) : b.block v = b.block w := by
  have hw := b.mem_block w
  rw [block_eq_iff, h]
  omega

theorem pos_raise_of_ne (b : Blocks N K) {v w : Fin N} (hv : v ≠ w)
    (h : (b.block w : Nat) + 1 < K) :
    ((b.raise w h).pos v : Nat) =
      if (b.pos v : Nat) = b.bound (b.block w + 1) - 1 then (b.pos w : Nat) else b.pos v := by
  rw [pos_raise, Equiv.swap_apply_def, if_neg (b.pos_injective.ne hv)]
  simp only [Fin.ext_iff, apply_ite Fin.val]

theorem pos_lower_of_ne (b : Blocks N K) {v w : Fin N} (hv : v ≠ w)
    (h : 0 < (b.block w : Nat)) :
    ((b.lower w h).pos v : Nat) =
      if (b.pos v : Nat) = b.bound (b.block w) then (b.pos w : Nat) else b.pos v := by
  rw [pos_lower, Equiv.swap_apply_def, if_neg (b.pos_injective.ne hv)]
  simp only [Fin.ext_iff, apply_ite Fin.val]

/-- Where raising `w` leaves another element. -/
theorem pos_raiseTo {v w : Fin N} (hv : v ≠ w) (z : Fin K) (turns : Nat) (b : Blocks N K)
    (ht : (z : Nat) - b.block w < turns) :
    ((raiseTo w z turns b).pos v : Nat) =
      if (b.block w : Nat) ≤ b.block v ∧ (b.block v : Nat) < z ∧
          (b.pos v : Nat) = b.bound (b.block v + 1) - 1 then
        if (b.block w : Nat) = b.block v then (b.pos w : Nat) else b.bound (b.block v) - 1
      else (b.pos v : Nat) := by
  induction turns generalizing b with
  | zero => omega
  | succ turns ih =>
      rw [raiseTo]
      by_cases hlt : b.block w < z
      · have hstep : (b.block w : Nat) + 1 < K := by omega
        have hblock : (b.raise w hstep).block w = ⟨b.block w + 1, hstep⟩ := by simp
        have hother : (b.raise w hstep).block v = b.block v := by simp [hv]
        have hw : ((b.raise w hstep).pos w : Nat) = b.bound (b.block w + 1) - 1 := by
          rw [pos_raise, Equiv.swap_apply_left]
        have hlast := @block_eq_of_pos_eq_last N K b v w
        have hmem := b.mem_block v
        rw [dif_pos hlt, ih _ (by rw [hblock]; simp only; omega), pos_raise_of_ne b hv hstep,
          hblock, hother, hw]
        simp only [raise, Function.update_apply]
        grind
      · rw [dif_neg hlt, if_neg (by omega)]

/-- Where lowering `w` leaves another element. -/
theorem pos_lowerTo {v w : Fin N} (hv : v ≠ w) (z : Fin K) (turns : Nat) (b : Blocks N K)
    (ht : (b.block w : Nat) - z < turns) :
    ((lowerTo w z turns b).pos v : Nat) =
      if (z : Nat) < b.block v ∧ (b.block v : Nat) ≤ b.block w ∧
          (b.pos v : Nat) = b.bound (b.block v) then
        if (b.block w : Nat) = b.block v then (b.pos w : Nat) else b.bound (b.block v + 1)
      else (b.pos v : Nat) := by
  induction turns generalizing b with
  | zero => omega
  | succ turns ih =>
      rw [lowerTo]
      by_cases hlt : z < b.block w
      · have hstep : 0 < (b.block w : Nat) := by omega
        have hblock : (b.lower w hstep).block w = ⟨b.block w - 1, by omega⟩ := by simp
        have hother : (b.lower w hstep).block v = b.block v := by simp [hv]
        have hw : ((b.lower w hstep).pos w : Nat) = b.bound (b.block w) := by
          rw [pos_lower, Equiv.swap_apply_left]
        have hfirst := @block_eq_of_pos_eq_first N K b v w
        rw [dif_pos hlt, ih _ (by rw [hblock]; simp only; omega), pos_lower_of_ne b hv hstep,
          hblock, hother, hw]
        simp only [lower, Function.update_apply]
        grind
      · rw [dif_neg hlt, if_neg (by omega)]

/-- Asked for the block it is in, an element stays where it stands. -/
theorem moveTo_self (b : Blocks N K) (w : Fin N) : b.moveTo w (b.block w) = b := by
  rw [moveTo, raiseTo_of_le le_rfl, lowerTo_of_le le_rfl]

/-- A move carries at most one other element of a block, as `shift` says, and leaves the rest
where they stand. -/
theorem pos_moveTo (b : Blocks N K) {v w : Fin N} (hv : v ≠ w) (z : Fin K) :
    ((b.moveTo w z).pos v : Nat) =
      match b.shift w z (b.block v) with
      | some (old, new) => if (b.pos v : Nat) = old then new else b.pos v
      | none => b.pos v := by
  have hw : (raiseTo w z K b).block w = max (b.block w) z := by
    rw [block_raiseTo w z K b (by omega), Function.update_self]
  rcases lt_or_ge (b.block w) z with hlt | hge
  · rw [moveTo, lowerTo_of_le (by rw [hw, max_eq_right hlt.le]), pos_raiseTo hv z K _ (by omega)]
    grind [shift]
  · rw [moveTo, raiseTo_of_le hge, pos_lowerTo hv z K _ (by omega)]
    grind [shift]

/-! ## Listing a block -/

theorem position_lt (b : Blocks N K) {k : Nat} (j : Fin (b.bound (k + 1) - b.bound k)) :
    b.bound k + j < N := by
  have hle := b.bound_le (k + 1)
  have hj := j.isLt
  omega

/-- The elements of block `k`, in the order they stand in. -/
def members (b : Blocks N K) (k : Nat) : List (Fin N) :=
  List.ofFn fun j : Fin (b.bound (k + 1) - b.bound k) => b.elem ⟨b.bound k + j, b.position_lt j⟩

/-- A block lists each of its elements once. -/
theorem nodup_members (b : Blocks N K) (k : Nat) : (b.members k).Nodup := by
  refine List.nodup_ofFn.mpr fun i j h => ?_
  have h' := congrArg Fin.val (b.elem.injective h)
  simp only at h'
  exact Fin.ext (by omega)

/-- A block lists its elements and no others. -/
theorem mem_members (b : Blocks N K) (w : Fin N) (k : Fin K) :
    w ∈ b.members k ↔ b.block w = k := by
  rw [block_eq_iff, members, List.mem_ofFn]
  constructor
  · rintro ⟨j, hj⟩
    have hj' := j.isLt
    rw [← hj, pos_elem]
    exact ⟨Nat.le_add_right _ _, by simp only; omega⟩
  · rintro ⟨hle, hlt⟩
    refine ⟨⟨b.pos w - b.bound k, by omega⟩, ?_⟩
    have hp : (⟨b.bound k + (b.pos w - b.bound k), by omega⟩ : Fin N) = b.pos w :=
      Fin.ext (by simp only; omega)
    simp only [hp, elem_pos]

end Blocks

end ServerStudy
