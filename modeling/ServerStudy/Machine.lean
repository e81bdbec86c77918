import Mathlib.Algebra.Ring.Nat
import Mathlib.Logic.Function.Basic
import Mathlib.Tactic.Common

/-!
# ServerStudy.Machine

Machine-level values the models are written with.

* `sub64` / `toULong` — `size_t` subtraction and the conversion to a 32-bit
  unsigned `long`, on `Nat`, with their wrap-around written out;
* `FixedArray n α` — `std::array<α, n>`, whose accesses are *checked*: reading
  or writing out of range is `none`, never a default value;
* `Fault` — the ways a run can leave defined behaviour.
-/

namespace ServerStudy

/-! ## words -/

/-- `a - b` in a 64-bit `size_t`. -/
def sub64 (a b : Nat) : Nat := (a + 2 ^ 64 - b) % 2 ^ 64

/-- `a + b` in a 64-bit `size_t`. -/
def add64 (a b : Nat) : Nat := (a + b) % 2 ^ 64

/-- Conversion of a `size_t` to a 32-bit `ULONG`. -/
def toULong (a : Nat) : Nat := a % 2 ^ 32

theorem sub64_of_le {a b : Nat} (h : b ≤ a) (ha : a < 2 ^ 64) : sub64 a b = a - b := by
  unfold sub64
  omega

theorem add64_of_lt {a b : Nat} (h : a + b < 2 ^ 64) : add64 a b = a + b := Nat.mod_eq_of_lt h

theorem toULong_of_lt {a : Nat} (h : a < 2 ^ 32) : toULong a = a := Nat.mod_eq_of_lt h

/-- The 32-bit successor is exact below the top. -/
theorem toNat_succ32 {c : UInt32} (h : c.toNat + 1 < 2 ^ 32) : (c + 1).toNat = c.toNat + 1 := by
  rw [UInt32.toNat_add]
  exact Nat.mod_eq_of_lt h

/-- The 32-bit predecessor is exact above zero. -/
theorem toNat_pred32 {c : UInt32} (h : 0 < c.toNat) : (c - 1).toNat = c.toNat - 1 := by
  rw [UInt32.toNat_sub_of_le]
  · rfl
  · exact UInt32.le_iff_toNat_le.mpr h

/-- A small number survives the conversion to 32 bits. -/
theorem toNat_ofNat32 {n : Nat} (h : n < 2 ^ 32) : (UInt32.ofNat n).toNat = n := by
  rw [UInt32.toNat_ofNat']
  exact Nat.mod_eq_of_lt h

/-! ## fixed arrays -/

universe u

/-- `std::array<α, n>`. -/
abbrev FixedArray (n : Nat) (α : Type u) := Fin n → α

namespace FixedArray

variable {n : Nat} {α : Type u}

/-- `a[i]`, `none` when out of range. -/
def get? (a : FixedArray n α) (i : Nat) : Option α :=
  if h : i < n then some (a ⟨i, h⟩) else none

/-- `a[i] = x`, `none` when out of range. -/
def set? (a : FixedArray n α) (i : Nat) (x : α) : Option (FixedArray n α) :=
  if h : i < n then some (Function.update a ⟨i, h⟩ x) else none

@[simp] theorem get?_val (a : FixedArray n α) (i : Fin n) : a.get? i = some (a i) := by
  simp [get?]

@[simp] theorem set?_val (a : FixedArray n α) (i : Fin n) (x : α) :
    a.set? i x = some (Function.update a i x) := by
  simp [set?]

theorem get?_of_lt (a : FixedArray n α) {i : Nat} (h : i < n) : a.get? i = some (a ⟨i, h⟩) :=
  dif_pos h

theorem set?_of_lt (a : FixedArray n α) {i : Nat} (h : i < n) (x : α) :
    a.set? i x = some (Function.update a ⟨i, h⟩ x) :=
  dif_pos h

end FixedArray

/-! ## faults -/

/-- What an access can be out of range of. -/
inductive Region where
  | pool | sessions | buffer | packet | handlers
  deriving DecidableEq

/-- Undefined behaviour, a failed assertion, an uncaught exception, or a loop
that does not stop. -/
inductive Fault where
  | outOfRange (region : Region)
  | nullPointer
  /-- the null pointer that `GetListener` returns -/
  | noListener
  | emptyFunction
  | assertion
  | endless
  deriving DecidableEq

end ServerStudy
