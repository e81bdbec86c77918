import Mathlib.Data.Nat.ModEq
import ServerStudy.Machine

/-!
# ServerStudy.Ring

A queue in an array of `n` cells, with a head and a tail that only count up, in
64 bits, and are reduced modulo `n` at each access.  When `n` divides `2 ^ 64`
the counters may wrap.

* `Holds r l` — the queue is `l`, in at most `n` cells;
* `Holds.push`, `Holds.shift`, `Holds.pop`, `Holds.transfer` — how each operation
  changes it.
-/

namespace ServerStudy

/-- Cells, and the counters of what was taken out and what was put in. -/
structure Ring (n : Nat) (α : Type) where
  cells : Fin n → α
  head : Nat
  tail : Nat

namespace Ring

variable {n m : Nat} [NeZero n] [NeZero m] {α : Type}

/-! ## operations -/

/-- `tail - head`. -/
def count (r : Ring n α) : Nat := sub64 r.tail r.head

/-- `cells[tail % n] = a; tail++`. -/
def push (r : Ring n α) (a : α) : Ring n α :=
  { r with cells := Function.update r.cells (Fin.ofNat n r.tail) a, tail := add64 r.tail 1 }

/-- `cells[head % n]`. -/
def front (r : Ring n α) : α := r.cells (Fin.ofNat n r.head)

/-- `head++`. -/
def shift (r : Ring n α) : Ring n α := { r with head := add64 r.head 1 }

/-- `tail--`. -/
def pop (r : Ring n α) : Ring n α := { r with tail := sub64 r.tail 1 }

/-- `cells[tail % n]`, which is the last once `tail` was moved back. -/
def next (r : Ring n α) : α := r.cells (Fin.ofNat n r.tail)

/-- Move the first `k`, one by one, to the tail of another ring. -/
def transfer : Nat → Ring n α → Ring m α → Ring n α × Ring m α
  | 0, src, dst => (src, dst)
  | k + 1, src, dst => transfer k src.shift (dst.push src.front)

/-- What is in the queue, in order. -/
def list (r : Ring n α) : List α :=
  (List.range r.count).map fun i => r.cells (Fin.ofNat n (r.head + i))

/-! ## what is in it -/

/-- The queue is `l`, and fits. -/
structure Holds (r : Ring n α) (l : List α) : Prop where
  head_lt : r.head < 2 ^ 64
  tail_eq : r.tail = add64 r.head l.length
  fits : l.length ≤ n
  get : ∀ i, i < l.length → l[i]? = some (r.cells (Fin.ofNat n (r.head + i)))

variable {r : Ring n α} {l : List α} {a : α}

theorem holds_nil (h : r.head = r.tail) (hlt : r.head < 2 ^ 64) : r.Holds [] := by
  refine ⟨hlt, ?_, Nat.zero_le _, fun i hi => absurd hi (Nat.not_lt_zero i)⟩
  rw [← h]
  exact (Nat.mod_eq_of_lt hlt).symm

/-- Counters that wrap still tell the length, in fewer than `2 ^ 64` cells. -/
theorem Holds.count_eq (h : r.Holds l) (hn : n < 2 ^ 64) : r.count = l.length := by
  have hlt := h.head_lt
  have hfits := h.fits
  rw [count, h.tail_eq, sub64, add64]
  omega

theorem Holds.list_eq (h : r.Holds l) (hn : n < 2 ^ 64) : r.list = l := by
  refine List.ext_getElem? fun i => ?_
  rw [list, h.count_eq hn, List.getElem?_map]
  by_cases hi : i < l.length
  · rw [List.getElem?_range hi, h.get i hi, Option.map_some]
  · rw [List.getElem?_eq_none (by rw [List.length_range]; omega), List.getElem?_eq_none (by omega),
      Option.map_none]

/-! ## cells under counters that wrap -/

/-- Where `n` divides `2 ^ 64`, wrapping does not change a cell. -/
theorem ofNat_add64 (hdvd : n ∣ 2 ^ 64) (a b i : Nat) :
    Fin.ofNat n (add64 a b + i) = Fin.ofNat n (a + b + i) := by
  refine Fin.ext ?_
  simp only [Fin.val_ofNat, add64]
  exact (((Nat.mod_modEq (a + b) (2 ^ 64)).of_dvd hdvd).add_right i)

/-- Two places less than `n` apart are different cells. -/
theorem ofNat_ne {h i j : Nat} (hi : i < n) (hj : j < n) (hij : i ≠ j) :
    Fin.ofNat n (h + i) ≠ Fin.ofNat n (h + j) := by
  intro he
  have hval := congrArg Fin.val he
  simp only [Fin.val_ofNat] at hval
  have hmod : i ≡ j [MOD n] := Nat.ModEq.add_left_cancel' h hval
  exact hij (hmod.eq_of_lt_of_lt hi hj)

theorem Holds.push (h : r.Holds l) (hdvd : n ∣ 2 ^ 64) (hroom : l.length < n) :
    (r.push a).Holds (l ++ [a]) := by
  have htail : Fin.ofNat n r.tail = Fin.ofNat n (r.head + l.length) := by
    rw [h.tail_eq]
    exact ofNat_add64 hdvd r.head l.length 0
  refine ⟨h.head_lt, ?_, ?_, fun i hi => ?_⟩
  · rw [List.length_append, List.length_singleton, Ring.push, h.tail_eq]
    simp only [add64]
    omega
  · rw [List.length_append, List.length_singleton]
    omega
  · rw [List.length_append, List.length_singleton] at hi
    simp only [Ring.push, htail]
    by_cases hil : i = l.length
    · subst hil
      rw [List.getElem?_concat_length, Function.update_self]
    · rw [List.getElem?_append_left (by omega), Function.update_of_ne
        (ofNat_ne (by omega) (by omega) hil), h.get i (by omega)]

theorem Holds.front_eq (h : r.Holds (a :: l)) : r.front = a := by
  have hget := h.get 0 (Nat.zero_lt_succ _)
  rw [List.getElem?_cons_zero] at hget
  exact (Option.some.inj hget).symm

theorem Holds.shift (h : r.Holds (a :: l)) (hdvd : n ∣ 2 ^ 64) : r.shift.Holds l := by
  refine ⟨Nat.mod_lt _ (Nat.two_pow_pos 64), ?_, Nat.le_of_succ_le h.fits, fun i hi => ?_⟩
  · rw [Ring.shift, h.tail_eq, List.length_cons]
    simp only [add64]
    omega
  · have hget := h.get (i + 1) (Nat.succ_lt_succ hi)
    rw [List.getElem?_cons_succ] at hget
    simp only [Ring.shift]
    rw [hget, ofNat_add64 hdvd, Nat.add_right_comm, Nat.add_assoc]

/-- `tail--` takes the last off the end. -/
theorem Holds.pop (h : r.Holds (l ++ [a])) (hdvd : n ∣ 2 ^ 64) : r.pop.Holds l ∧ r.pop.next = a := by
  have hlen : (l ++ [a]).length = l.length + 1 := List.length_append
  have hfits := h.fits
  have hlt := h.head_lt
  have htail : r.pop.tail = add64 r.head l.length := by
    rw [Ring.pop, h.tail_eq, hlen]
    simp only [add64, sub64]
    omega
  have hhead : r.pop.head = r.head := by rw [Ring.pop]
  have hcells : r.pop.cells = r.cells := by rw [Ring.pop]
  refine ⟨⟨?_, ?_, by omega, fun i hi => ?_⟩, ?_⟩
  · rwa [hhead]
  · rw [hhead, htail]
  · have hget := h.get i (by omega)
    rwa [List.getElem?_append_left hi, ← hhead, ← hcells] at hget
  · have hget := h.get l.length (by omega)
    rw [List.getElem?_concat_length, Option.some.injEq] at hget
    have hcell : Fin.ofNat n (add64 r.head l.length) = Fin.ofNat n (r.head + l.length) :=
      ofNat_add64 hdvd r.head l.length 0
    rw [next, htail, hcell, hcells, hget]

/-- The first `k` move over, in order. -/
theorem Holds.transfer {r' : Ring m α} {l' : List α} (hn : n ∣ 2 ^ 64) (hm : m ∣ 2 ^ 64) {k : Nat}
    (h : r.Holds l) (h' : r'.Holds l') (hk : k ≤ l.length) (hroom : l'.length + k ≤ m) :
    (transfer k r r').1.Holds (l.drop k) ∧ (transfer k r r').2.Holds (l' ++ l.take k) := by
  induction k generalizing r r' l l' with
  | zero =>
      rw [List.drop_zero, List.take_zero, List.append_nil]
      exact ⟨h, h'⟩
  | succ k ih =>
      cases l with
      | nil => exact absurd hk (Nat.not_succ_le_zero k)
      | cons a l =>
          have hpush : (r'.push r.front).Holds (l' ++ [a]) := by
            rw [h.front_eq]
            exact h'.push hm (by omega)
          have hend := ih (h.shift hn) hpush (Nat.le_of_succ_le_succ hk)
            (by rw [List.length_append, List.length_singleton]; omega)
          rw [List.append_assoc] at hend
          exact hend

end Ring

end ServerStudy
