import ClassOutline.Decoder.Basic
import Mathlib.Algebra.Group.Nat.Defs

/-!
# Big-endian numbers

How a number is written in a fixed number of bytes, and that writing and reading undo each other:
every number that fits is read back (`bigEndian_toBigEndian`), and every bytes are those of the
number that they denote (`toBigEndian_bigEndian`).
-/

namespace ClassOutline.Decoder

/-- A number in `width` bytes, the most significant one first. -/
def toBigEndian : Nat → Nat → List UInt8
  | 0, _ => []
  | width + 1, n => UInt8.ofNat (n / 256 ^ width) :: toBigEndian width n

@[simp] theorem length_toBigEndian (width n : Nat) : (toBigEndian width n).length = width := by
  induction width with
  | zero => rfl
  | succ width ih => simp [toBigEndian, ih]

/-- Bytes on their own count as much as after others, which are shifted to the left of them. -/
theorem foldl_bigEndian (bytes : List UInt8) (n : Nat) :
    bytes.foldl (fun number byte => 256 * number + byte.toNat) n =
      n * 256 ^ bytes.length + bigEndian bytes := by
  induction bytes generalizing n with
  | nil => simp [bigEndian]
  | cons byte bytes ih =>
    rw [bigEndian, List.foldl_cons, List.foldl_cons, ih, ih (256 * 0 + byte.toNat),
      List.length_cons, Nat.pow_succ]
    grind

theorem bigEndian_cons (byte : UInt8) (bytes : List UInt8) :
    bigEndian (byte :: bytes) = byte.toNat * 256 ^ bytes.length + bigEndian bytes := by
  rw [bigEndian, List.foldl_cons, foldl_bigEndian]
  simp

theorem bigEndian_lt (bytes : List UInt8) : bigEndian bytes < 256 ^ bytes.length := by
  induction bytes with
  | nil => simp [bigEndian]
  | cons byte bytes ih =>
    rw [bigEndian_cons, List.length_cons, Nat.pow_succ]
    have hbyte : byte.toNat + 1 ≤ 256 := byte.toNat_lt
    have hmul : (byte.toNat + 1) * 256 ^ bytes.length ≤ 256 * 256 ^ bytes.length :=
      Nat.mul_le_mul_right _ hbyte
    rw [Nat.add_mul, Nat.one_mul] at hmul
    omega

/-- What is read is the number modulo what the width can hold. -/
theorem bigEndian_toBigEndian_mod (width n : Nat) :
    bigEndian (toBigEndian width n) = n % 256 ^ width := by
  induction width with
  | zero => simp [toBigEndian, bigEndian, Nat.mod_one]
  | succ width ih =>
    rw [toBigEndian, bigEndian_cons, ih, length_toBigEndian, Nat.pow_succ, Nat.mod_mul]
    have hbyte : (UInt8.ofNat (n / 256 ^ width)).toNat = n / 256 ^ width % 256 := by simp
    rw [hbyte, Nat.mul_comm, Nat.add_comm]

/-- A number that fits into its width is read as it was written. -/
theorem bigEndian_toBigEndian {width n : Nat} (h : n < 256 ^ width) :
    bigEndian (toBigEndian width n) = n := by
  rw [bigEndian_toBigEndian_mod, Nat.mod_eq_of_lt h]

/-- Multiples of what the width can hold are not written. -/
theorem toBigEndian_add_mul (width n k : Nat) :
    toBigEndian width (k * 256 ^ width + n) = toBigEndian width n := by
  induction width generalizing k with
  | zero => rfl
  | succ width ih =>
    have hsplit : k * 256 ^ (width + 1) + n = (k * 256) * 256 ^ width + n := by
      rw [Nat.pow_succ, Nat.mul_assoc, Nat.mul_comm 256]
    have hpos : 0 < 256 ^ width := Nat.pow_pos (by omega)
    rw [toBigEndian, toBigEndian, hsplit, ih]
    congr 1
    rw [Nat.add_comm, Nat.add_mul_div_right _ _ hpos]
    apply UInt8.toNat_inj.mp
    simp

/-- Bytes are the number that they denote, written in their number. -/
theorem toBigEndian_bigEndian (bytes : List UInt8) :
    toBigEndian bytes.length (bigEndian bytes) = bytes := by
  induction bytes with
  | nil => rfl
  | cons byte bytes ih =>
    have hpos : 0 < 256 ^ bytes.length := Nat.pow_pos (by omega)
    have hdiv : bigEndian bytes / 256 ^ bytes.length = 0 := Nat.div_eq_of_lt (bigEndian_lt bytes)
    rw [List.length_cons, toBigEndian, bigEndian_cons, toBigEndian_add_mul, ih, Nat.add_comm,
      Nat.add_mul_div_right _ _ hpos, hdiv]
    simp

example : toBigEndian 4 0xCAFEBABE = [0xCA, 0xFE, 0xBA, 0xBE] := by decide

end ClassOutline.Decoder
