/-
Little-endian images of natural numbers: a number is written to a fixed count of bytes, least
significant byte first, and read back from any bytes. Reading what was written returns the
number modulo the size of the field, so a field that holds its value survives the round trip.
-/
import Mathlib.Algebra.Ring.Nat
import Mathlib.Data.List.Basic
import Mathlib.Tactic.Common

namespace Opio

/-- A sequence of bytes. -/
abbrev Bytes := List UInt8

namespace LittleEndian

/-- The `width` low bytes of `n`, least significant first. -/
def write : Nat → Nat → Bytes
  | 0, _ => []
  | width + 1, n => UInt8.ofNat n :: write width (n / 256)

/-- The number whose bytes, least significant first, are the given ones. -/
def read : Bytes → Nat
  | [] => 0
  | b :: bs => b.toNat + 256 * read bs

@[simp] theorem length_write (width n : Nat) : (write width n).length = width := by
  induction width generalizing n with
  | zero => rfl
  | succ width ih => simp [write, ih]

theorem read_write_mod (width n : Nat) : read (write width n) = n % 256 ^ width := by
  induction width generalizing n with
  | zero => simp [write, read, Nat.mod_one]
  | succ width ih =>
    simp only [write, read, ih, UInt8.toNat_ofNat', Nat.reducePow]
    rw [Nat.pow_succ' (n := width), Nat.mod_mul]

/-- A number that fits its field is read back unchanged. -/
theorem read_write {w n : Nat} (h : n < 256 ^ w) : read (write w n) = n := by
  rw [read_write_mod, Nat.mod_eq_of_lt h]

theorem read_lt (bs : Bytes) : read bs < 256 ^ bs.length := by
  induction bs with
  | nil => simp [read]
  | cons b bs ih =>
    have hb := b.toNat_lt
    simp only [read, List.length_cons, Nat.pow_succ']
    omega

/-- Bytes that were read come back when the number is written to as many bytes. -/
theorem write_read (bs : Bytes) : write bs.length (read bs) = bs := by
  induction bs with
  | nil => rfl
  | cons b bs ih =>
    have hb := b.toNat_lt
    have hdiv : (b.toNat + 256 * read bs) / 256 = read bs := by omega
    have hlow : UInt8.ofNat (b.toNat + 256 * read bs) = b := by
      apply UInt8.toNat_inj.1
      rw [UInt8.toNat_ofNat']
      omega
    rw [List.length_cons, write, read, hdiv, hlow, ih]

end LittleEndian

end Opio
