import Mathlib.Logic.Function.Basic
import Mathlib.Data.Nat.ModEq
import Mathlib.Tactic.Common

/-!
# ServerStudy.Mirror

A buffer of `B` bytes mapped twice in a row, so that the offsets `i` and `i + B`
are the same byte and a run of up to `B` bytes never has to be split.

* `slice m off n` — the `n` bytes from offset `off` on;
* `write m off bs` — the memory after `bs` is copied to offset `off`;
* `read?` / `write?` — the same, checked against the `2 * B` mapped offsets.

A write is read back (`slice_write_self`), and leaves alone every slice that
ends before it within one turn of the ring (`slice_write_before`).
-/

namespace ServerStudy

/-- The `B` bytes behind the two mappings. -/
abbrev Mirror (B : Nat) := Fin B → UInt8

namespace Mirror

variable {B : Nat} [NeZero B]

/-! ## bytes and slices -/

/-- The byte at an offset. -/
def byte (m : Mirror B) (off : Nat) : UInt8 := m (Fin.ofNat B off)

/-- The `n` bytes from an offset on. -/
def slice (m : Mirror B) : Nat → Nat → List UInt8
  | _, 0 => []
  | off, n + 1 => m.byte off :: m.slice (off + 1) n

/-- Copy bytes to an offset. -/
def write (m : Mirror B) : Nat → List UInt8 → Mirror B
  | _, [] => m
  | off, b :: bs => write (Function.update m (Fin.ofNat B off) b) (off + 1) bs

/-- `slice`, within the two mappings. -/
def read? (m : Mirror B) (off n : Nat) : Option (List UInt8) :=
  if off + n ≤ 2 * B then some (m.slice off n) else none

/-- `write`, within the two mappings. -/
def write? (m : Mirror B) (off : Nat) (bs : List UInt8) : Option (Mirror B) :=
  if off + bs.length ≤ 2 * B then some (m.write off bs) else none

theorem read?_of_le (m : Mirror B) {off n : Nat} (h : off + n ≤ 2 * B) :
    m.read? off n = some (m.slice off n) := if_pos h

theorem write?_of_le (m : Mirror B) {off : Nat} {bs : List UInt8} (h : off + bs.length ≤ 2 * B) :
    m.write? off bs = some (m.write off bs) := if_pos h

@[simp] theorem slice_zero (m : Mirror B) (off : Nat) : m.slice off 0 = [] := rfl

theorem slice_succ (m : Mirror B) (off n : Nat) :
    m.slice off (n + 1) = m.byte off :: m.slice (off + 1) n := rfl

@[simp] theorem length_slice (m : Mirror B) (off n : Nat) : (m.slice off n).length = n := by
  induction n generalizing off with
  | zero => rfl
  | succ n ih => rw [slice_succ, List.length_cons, ih]

/-- The two mappings show the same byte. -/
theorem byte_add_period (m : Mirror B) (off : Nat) : m.byte (off + B) = m.byte off := by
  rw [byte, byte]
  congr 1
  apply Fin.ext
  simp only [Fin.ofNat, Nat.add_mod_right]

theorem slice_add_period (m : Mirror B) (off n : Nat) : m.slice (off + B) n = m.slice off n := by
  induction n generalizing off with
  | zero => rfl
  | succ n ih =>
      rw [slice_succ, slice_succ, byte_add_period, show off + B + 1 = off + 1 + B by omega, ih]

theorem slice_add (m : Mirror B) (off n k : Nat) :
    m.slice off (n + k) = m.slice off n ++ m.slice (off + n) k := by
  induction n generalizing off with
  | zero => rw [Nat.zero_add, slice_zero, Nat.add_zero, List.nil_append]
  | succ n ih =>
      rw [show n + 1 + k = n + k + 1 by omega, slice_succ, slice_succ, ih, List.cons_append,
        show off + 1 + n = off + (n + 1) by omega]

/-- A slice split at a smaller length. -/
theorem slice_split (m : Mirror B) (off : Nat) {k n : Nat} (h : k ≤ n) :
    m.slice off n = m.slice off k ++ m.slice (off + k) (n - k) := by
  rw [← slice_add, Nat.add_sub_cancel' h]

theorem take_slice (m : Mirror B) (off : Nat) {k n : Nat} (h : k ≤ n) :
    (m.slice off n).take k = m.slice off k := by
  rw [slice_split m off h, List.take_left' (length_slice m off k)]

theorem drop_slice (m : Mirror B) (off : Nat) {k n : Nat} (h : k ≤ n) :
    (m.slice off n).drop k = m.slice (off + k) (n - k) := by
  rw [slice_split m off h, List.drop_left' (length_slice m off k)]

/-! ## writes -/

theorem write_cons (m : Mirror B) (off : Nat) (b : UInt8) (bs : List UInt8) :
    m.write off (b :: bs) = write (Function.update m (Fin.ofNat B off) b) (off + 1) bs := rfl

/-- Two offsets less than a turn apart are different bytes. -/
theorem ofNat_ne_of_lt {i j : Nat} (hij : i < j) (hj : j < i + B) :
    Fin.ofNat B i ≠ Fin.ofNat B j := by
  intro h
  have hmod : i ≡ j [MOD B] := congrArg Fin.val h
  have hdvd : B ∣ j - i := (Nat.modEq_iff_dvd' hij.le).mp hmod
  have hle := Nat.le_of_dvd (by omega) hdvd
  omega

/-- A write changes no byte in the turn before its end. -/
theorem byte_write_before (m : Mirror B) {i off : Nat} {bs : List UInt8} (hlt : i < off)
    (hfit : off + bs.length ≤ i + B) : (m.write off bs).byte i = m.byte i := by
  induction bs generalizing m off with
  | nil => rfl
  | cons b bs ih =>
      rw [List.length_cons] at hfit
      rw [write_cons, ih _ (by omega) (by omega), byte, byte,
        Function.update_of_ne (ofNat_ne_of_lt hlt (by omega))]

theorem slice_write_before (m : Mirror B) {i n off : Nat} {bs : List UInt8} (hle : i + n ≤ off)
    (hfit : off + bs.length ≤ i + B) : (m.write off bs).slice i n = m.slice i n := by
  induction n generalizing i with
  | zero => rfl
  | succ n ih =>
      rw [slice_succ, slice_succ, byte_write_before m (by omega) hfit, ih (by omega) (by omega)]

/-- What was written is read back. -/
theorem slice_write_self (m : Mirror B) (off : Nat) {bs : List UInt8} (hfit : bs.length ≤ B) :
    (m.write off bs).slice off bs.length = bs := by
  induction bs generalizing m off with
  | nil => rfl
  | cons b bs ih =>
      rw [List.length_cons] at hfit
      rw [List.length_cons, slice_succ, write_cons, ih _ _ (by omega),
        byte_write_before _ (by omega) (by omega), byte, Function.update_self]

/-- Appending to a slice that still fits the ring. -/
theorem slice_write_append (m : Mirror B) (off n : Nat) {bs : List UInt8}
    (hfit : n + bs.length ≤ B) :
    (m.write (off + n) bs).slice off (n + bs.length) = m.slice off n ++ bs := by
  rw [slice_add, slice_write_before m le_rfl (by omega), slice_write_self m _ (by omega)]

end Mirror

end ServerStudy
