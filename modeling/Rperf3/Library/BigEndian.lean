import Mathlib.Tactic.Ring
import Mathlib.Data.Nat.ModEq

/-!
# Big-endian digits

Fixed-width big-endian byte strings and their value: `encode k n` writes the
`k` low base-256 digits of `n`, most significant first, and `decode` reads a
byte string back: `decode` after `encode k` is reduction modulo `256 ^ k`, and
every byte string is the encoding of its value.
-/

namespace BigEndian

/-- The `k` low base-256 digits of `n`, most significant first. -/
def encode : ℕ → ℕ → List UInt8
  | 0, _ => []
  | k + 1, n => UInt8.ofNat (n / 256 ^ k) :: encode k n

def decode : List UInt8 → ℕ
  | [] => 0
  | b :: bs => b.toNat * 256 ^ bs.length + decode bs

@[simp] theorem length_encode (k n : ℕ) : (encode k n).length = k := by
  induction k with
  | zero => rfl
  | succ k ih => simp only [encode, List.length_cons, ih]

theorem decode_encode (k n : ℕ) : decode (encode k n) = n % 256 ^ k := by
  induction k with
  | zero => simp [encode, decode, Nat.mod_one]
  | succ k ih =>
    have hd : (UInt8.ofNat (n / 256 ^ k)).toNat = n / 256 ^ k % 256 := rfl
    simp only [encode, decode, length_encode, hd, ih]
    rw [pow_succ, Nat.mod_mul]
    ring

theorem decode_encode_of_lt {k n : ℕ} (h : n < 256 ^ k) : decode (encode k n) = n := by
  rw [decode_encode, Nat.mod_eq_of_lt h]

theorem decode_lt (bs : List UInt8) : decode bs < 256 ^ bs.length := by
  induction bs with
  | nil => simp [decode]
  | cons b bs ih =>
    have hb : b.toNat + 1 ≤ 256 := b.toNat_lt
    calc decode (b :: bs)
        < b.toNat * 256 ^ bs.length + 256 ^ bs.length := Nat.add_lt_add_left ih _
      _ = (b.toNat + 1) * 256 ^ bs.length := by ring
      _ ≤ 256 * 256 ^ bs.length := Nat.mul_le_mul_right _ hb
      _ = 256 ^ (b :: bs).length := by rw [List.length_cons, pow_succ, Nat.mul_comm]

/-- The digits above the width do not show. -/
theorem encode_mul_add (k m n : ℕ) : encode k (m * 256 ^ k + n) = encode k n := by
  induction k generalizing m with
  | zero => rfl
  | succ k ih =>
    have hpos : 0 < 256 ^ k := Nat.pow_pos (by decide)
    have hsplit : m * 256 ^ (k + 1) + n = m * 256 * 256 ^ k + n := by
      rw [pow_succ]
      ring
    have hhead : UInt8.ofNat (m * 256 + n / 256 ^ k) = UInt8.ofNat (n / 256 ^ k) := by
      apply UInt8.toNat_inj.mp
      simp
    simp only [encode]
    rw [hsplit, ih, Nat.add_comm, Nat.add_mul_div_right _ _ hpos, Nat.add_comm, hhead]

theorem encode_decode (bs : List UInt8) : encode bs.length (decode bs) = bs := by
  induction bs with
  | nil => rfl
  | cons b bs ih =>
    have hpos : 0 < 256 ^ bs.length := Nat.pow_pos (by decide)
    have hhead : (b.toNat * 256 ^ bs.length + decode bs) / 256 ^ bs.length = b.toNat := by
      rw [Nat.add_comm, Nat.add_mul_div_right _ _ hpos, Nat.div_eq_of_lt (decode_lt bs),
        Nat.zero_add]
    simp only [List.length_cons, encode, decode]
    rw [hhead, encode_mul_add, ih, UInt8.ofNat_toNat]

end BigEndian
