import Mathlib.Algebra.Group.Nat.Defs
import Mathlib.Data.List.Basic

/-!
# Big-endian numbers

`toBe k v` is the number `v` in `k` bytes, the high byte first, and `ofBe` the number a list of bytes stands for. They invert each
other on numbers that fit and on lists of any length. A disjunction of shifted bytes is such a number (`or_byte`).
-/

namespace ByteOrder

/-- The number a list of bytes stands for, the high byte first. -/
def ofBe : List UInt8 → Nat
  | [] => 0
  | b :: bs => b.toNat * 256 ^ bs.length + ofBe bs

/-- The low `k` bytes of a number, the high byte first. -/
def toBe : Nat → Nat → List UInt8
  | 0, _ => []
  | k + 1, v => UInt8.ofNat (v / 256 ^ k) :: toBe k v

@[simp] theorem length_toBe (k v : Nat) : (toBe k v).length = k := by
  induction k with
  | zero => rfl
  | succ k ih => simp [toBe, ih]

theorem ofBe_lt (bs : List UInt8) : ofBe bs < 256 ^ bs.length := by
  induction bs with
  | nil => simp [ofBe]
  | cons b bs ih =>
    have hb : b.toNat + 1 ≤ 256 := UInt8.toNat_lt b
    calc b.toNat * 256 ^ bs.length + ofBe bs < b.toNat * 256 ^ bs.length + 256 ^ bs.length := by omega
      _ = (b.toNat + 1) * 256 ^ bs.length := by rw [Nat.add_mul, Nat.one_mul]
      _ ≤ 256 * 256 ^ bs.length := Nat.mul_le_mul_right _ hb
      _ = 256 ^ (b :: bs).length := by rw [List.length_cons, Nat.pow_succ, Nat.mul_comm]

/-- Writing a number and reading it back keeps what fits. -/
theorem ofBe_toBe (k v : Nat) : ofBe (toBe k v) = v % 256 ^ k := by
  induction k with
  | zero => simp [toBe, ofBe, Nat.mod_one]
  | succ k ih =>
    have hsplit : v % 256 ^ (k + 1) = v % 256 ^ k + 256 ^ k * (v / 256 ^ k % 256) := Nat.mod_pow_succ
    rw [toBe, ofBe, ih, length_toBe, UInt8.toNat_ofNat', hsplit, Nat.mul_comm, Nat.add_comm]

/-- Only the low `k` bytes of a number matter. -/
theorem toBe_mod (k v : Nat) : toBe k (v % 256 ^ k) = toBe k v := by
  induction k generalizing v with
  | zero => rfl
  | succ k ih =>
    rw [toBe, toBe]
    congr 1
    · apply UInt8.toNat_inj.1
      rw [UInt8.toNat_ofNat', UInt8.toNat_ofNat', Nat.pow_succ, Nat.mod_mul_right_div_self]
      exact Nat.mod_mod _ _
    · rw [← ih (v % 256 ^ (k + 1)), Nat.mod_mod_of_dvd _ (Nat.pow_dvd_pow 256 (Nat.le_succ k)), ih]

/-- Reading bytes as a number and writing it back in as many bytes gives the bytes. -/
theorem toBe_ofBe (bs : List UInt8) : toBe bs.length (ofBe bs) = bs := by
  induction bs with
  | nil => rfl
  | cons b bs ih =>
    have hlt := ofBe_lt bs
    rw [List.length_cons, toBe, ofBe]
    congr 1
    · apply UInt8.toNat_inj.1
      rw [UInt8.toNat_ofNat', Nat.mul_comm, Nat.mul_add_div (Nat.pow_pos (by decide)), Nat.div_eq_of_lt hlt, Nat.add_zero]
      exact Nat.mod_eq_of_lt (UInt8.toNat_lt b)
    · rw [← toBe_mod, Nat.mul_add_mod', Nat.mod_eq_of_lt hlt, ih]

/-- A disjunction with a byte that lies below everything else appends the byte. -/
theorem or_byte (a b j : Nat) (hb : b < 256) : 2 ^ (j + 8) * a ||| 2 ^ j * b = 2 ^ j * (a * 256 + b) := by
  have hlt : 2 ^ j * b < 2 ^ (j + 8) := by
    rw [Nat.pow_add]
    exact Nat.mul_lt_mul_of_pos_left hb (Nat.two_pow_pos j)
  rw [← Nat.two_pow_add_eq_or_of_lt hlt, Nat.pow_add, Nat.mul_assoc, ← Nat.mul_add, Nat.mul_comm (2 ^ 8)]

end ByteOrder
