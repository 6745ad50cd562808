import Mathlib.Data.Nat.ModEq

/-!
# Little-endian memory

The bytes of a fixed-width number in the memory of a little-endian machine, the
number that is read back from them, and the swap of their order, which is what
such a machine does between host and network order.
-/

namespace LittleEndian

/-- The `k` low base-256 digits of `n`, least significant first. -/
def encode : ℕ → ℕ → List UInt8
  | 0, _ => []
  | k + 1, n => UInt8.ofNat n :: encode k (n / 256)

def decode : List UInt8 → ℕ
  | [] => 0
  | b :: bs => b.toNat + 256 * decode bs

def swapBytes (k n : ℕ) : ℕ := decode (encode k n).reverse

@[simp] theorem length_encode (k n : ℕ) : (encode k n).length = k := by
  induction k generalizing n with
  | zero => rfl
  | succ k ih => rw [encode, List.length_cons, ih]

theorem decode_encode (k n : ℕ) : decode (encode k n) = n % 256 ^ k := by
  induction k generalizing n with
  | zero => rw [encode, decode, pow_zero, Nat.mod_one]
  | succ k ih =>
    have hdigit : (UInt8.ofNat n).toNat = n % 256 := rfl
    rw [encode, decode, ih, hdigit, pow_succ', Nat.mod_mul]

theorem decode_encode_of_lt {k n : ℕ} (h : n < 256 ^ k) : decode (encode k n) = n := by
  rw [decode_encode, Nat.mod_eq_of_lt h]

theorem decode_lt (bs : List UInt8) : decode bs < 256 ^ bs.length := by
  induction bs with
  | nil => exact Nat.one_pos
  | cons b bs ih =>
    have hbyte := b.toNat_lt
    rw [decode, List.length_cons, pow_succ']
    omega

theorem encode_decode (bs : List UInt8) : encode bs.length (decode bs) = bs := by
  induction bs with
  | nil => rfl
  | cons b bs ih =>
    have hbyte := b.toNat_lt
    have hhead : UInt8.ofNat (b.toNat + 256 * decode bs) = b := by
      refine UInt8.toNat_inj.mp ?_
      rw [UInt8.toNat_ofNat', Nat.add_mul_mod_self_left, Nat.mod_eq_of_lt hbyte]
    have htail : (b.toNat + 256 * decode bs) / 256 = decode bs := by omega
    rw [List.length_cons, decode, encode, hhead, htail, ih]

theorem encode_decode_of_length {k : ℕ} {bs : List UInt8} (h : bs.length = k) :
    encode k (decode bs) = bs := by
  rw [← h, encode_decode]

theorem encode_swapBytes (k n : ℕ) : encode k (swapBytes k n) = (encode k n).reverse :=
  encode_decode_of_length (by rw [List.length_reverse, length_encode])

theorem swapBytes_lt (k n : ℕ) : swapBytes k n < 256 ^ k := by
  have hlt := decode_lt (encode k n).reverse
  rwa [List.length_reverse, length_encode] at hlt

theorem swapBytes_swapBytes {k n : ℕ} (h : n < 256 ^ k) : swapBytes k (swapBytes k n) = n := by
  rw [swapBytes, encode_swapBytes, List.reverse_reverse, decode_encode_of_lt h]

end LittleEndian
