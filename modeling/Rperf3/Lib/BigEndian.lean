/-
  Big-endian fixed-width numbers as byte lists (`to_be_bytes` / `from_be_bytes`).

  `toBE n v` is the `n`-byte encoding of `v` (taken modulo `256 ^ n`), `ofBE` reads a byte list of
  any length.  They are inverse to each other: `ofBE_toBE` and `toBE_ofBE`.
-/
import Mathlib.Tactic.Ring

namespace BigEndian

/-- The `n` low bytes of `v`, most significant first. -/
def toBE : Nat → Nat → List UInt8
  | 0, _ => []
  | n + 1, v => UInt8.ofNat (v / 256 ^ n) :: toBE n v

/-- The number a byte list denotes, most significant byte first. -/
def ofBE : List UInt8 → Nat
  | [] => 0
  | b :: bs => b.toNat * 256 ^ bs.length + ofBE bs

@[simp] theorem length_toBE (n v : Nat) : (toBE n v).length = n := by
  induction n with
  | zero => rfl
  | succ n ih => rw [toBE, List.length_cons, ih]

theorem ofBE_lt (bs : List UInt8) : ofBE bs < 256 ^ bs.length := by
  induction bs with
  | nil => exact Nat.one_pos
  | cons b bs ih =>
    have hb : b.toNat < 256 := b.toNat_lt
    have hmul : b.toNat * 256 ^ bs.length ≤ 255 * 256 ^ bs.length :=
      Nat.mul_le_mul_right _ (by omega)
    show b.toNat * 256 ^ bs.length + ofBE bs < 256 ^ (bs.length + 1)
    rw [Nat.pow_succ]
    omega

/-- Writing then reading gives the number back, modulo the width. -/
theorem ofBE_toBE (n v : Nat) : ofBE (toBE n v) = v % 256 ^ n := by
  induction n with
  | zero => exact (Nat.mod_one v).symm
  | succ n ih =>
    have hbyte : (UInt8.ofNat (v / 256 ^ n)).toNat = v / 256 ^ n % 256 := UInt8.toNat_ofNat'
    rw [toBE, ofBE, ih, length_toBE, hbyte, Nat.pow_succ, Nat.mod_mul]
    ring

/-- The bytes above the width do not matter. -/
theorem toBE_add_mul (n v k : Nat) : toBE n (k * 256 ^ n + v) = toBE n v := by
  induction n generalizing v k with
  | zero => rfl
  | succ n ih =>
    have hsplit : k * 256 ^ (n + 1) + v = (k * 256) * 256 ^ n + v := by
      rw [Nat.pow_succ]
      ring
    have hdiv : ((k * 256) * 256 ^ n + v) / 256 ^ n = k * 256 + v / 256 ^ n := by
      rw [Nat.add_comm, Nat.add_mul_div_right _ _ (Nat.pow_pos (by decide)), Nat.add_comm]
    rw [toBE, toBE, hsplit, ih, hdiv]
    congr 1
    apply UInt8.toNat_inj.mp
    rw [UInt8.toNat_ofNat', UInt8.toNat_ofNat']
    omega

/-- The leading byte is what is left above the other bytes' width. -/
theorem ofBE_cons_div (b : UInt8) (bs : List UInt8) :
    ofBE (b :: bs) / 256 ^ bs.length = b.toNat := by
  rw [ofBE, Nat.add_comm, Nat.add_mul_div_right _ _ (Nat.pow_pos (by decide)),
    Nat.div_eq_of_lt (ofBE_lt bs), Nat.zero_add]

/-- A bound on the leading byte is a bound on the number. -/
theorem mul_pow_le_ofBE_cons (k : Nat) (b : UInt8) (bs : List UInt8) :
    k * 256 ^ bs.length ≤ ofBE (b :: bs) ↔ k ≤ b.toNat := by
  rw [← Nat.le_div_iff_mul_le (Nat.pow_pos (by decide)), ofBE_cons_div]

/-- Reading then writing gives the bytes back. -/
theorem toBE_ofBE (bs : List UInt8) : toBE bs.length (ofBE bs) = bs := by
  induction bs with
  | nil => rfl
  | cons b bs ih =>
    rw [List.length_cons, toBE, ofBE_cons_div, ofBE, toBE_add_mul, ih, UInt8.ofNat_toNat]

end BigEndian
