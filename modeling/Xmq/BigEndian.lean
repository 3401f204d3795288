import Mathlib.Data.Nat.Notation
import Mathlib.Algebra.Order.Group.Nat
import Mathlib.Tactic.Ring

/-!
# Big-endian integers

A natural number below `256 ^ w` becomes exactly `w` bytes, the most significant first, and `w`
bytes become a natural number. `ofBytes_toBytes` is the round trip.
-/

namespace Xmq.BigEndian

/-- The `w` big-endian bytes of `n`; what does not fit in them is dropped. -/
def toBytes : ℕ → ℕ → List UInt8
  | 0, _ => []
  | w + 1, n => UInt8.ofNat (n / 256 ^ w) :: toBytes w n

/-- The natural number with the given big-endian bytes. -/
def ofBytes : List UInt8 → ℕ
  | [] => 0
  | b :: bs => b.toNat * 256 ^ bs.length + ofBytes bs

theorem toBytes_succ (w n : ℕ) :
    toBytes (w + 1) n = UInt8.ofNat (n / 256 ^ w) :: toBytes w n := rfl

theorem ofBytes_cons (b : UInt8) (bs : List UInt8) :
    ofBytes (b :: bs) = b.toNat * 256 ^ bs.length + ofBytes bs := rfl

@[simp] theorem length_toBytes (w n : ℕ) : (toBytes w n).length = w := by
  induction w with
  | zero => rfl
  | succ w ih => rw [toBytes_succ, List.length_cons, ih]

theorem ofBytes_toBytes_mod (w n : ℕ) : ofBytes (toBytes w n) = n % 256 ^ w := by
  induction w with
  | zero => exact (Nat.mod_one n).symm
  | succ w ih =>
      have hbyte : (UInt8.ofNat (n / 256 ^ w)).toNat = n / 256 ^ w % 256 := UInt8.toNat_ofNat'
      rw [toBytes_succ, ofBytes_cons, ih, hbyte, length_toBytes, pow_succ, Nat.mod_mul]
      ring

theorem ofBytes_toBytes {w n : ℕ} (h : n < 256 ^ w) : ofBytes (toBytes w n) = n := by
  rw [ofBytes_toBytes_mod, Nat.mod_eq_of_lt h]

theorem ofBytes_lt (bs : List UInt8) : ofBytes bs < 256 ^ bs.length := by
  induction bs with
  | nil => exact Nat.one_pos
  | cons b bs ih =>
      have hb : b.toNat * 256 ^ bs.length ≤ 255 * 256 ^ bs.length :=
        Nat.mul_le_mul_right _ (Nat.le_of_lt_succ b.toNat_lt)
      rw [ofBytes_cons, List.length_cons, pow_succ]
      omega

/-- Only the remainder is written. -/
theorem toBytes_mul_add (w k n : ℕ) : toBytes w (k * 256 ^ w + n) = toBytes w n := by
  induction w generalizing k with
  | zero => rfl
  | succ w ih =>
      have hpos : 0 < 256 ^ w := Nat.pow_pos (by decide)
      have hmul : k * 256 ^ (w + 1) = k * 256 * 256 ^ w := by ring
      have hhead : UInt8.ofNat ((k * 256 * 256 ^ w + n) / 256 ^ w) = UInt8.ofNat (n / 256 ^ w) := by
        rw [Nat.add_comm, Nat.add_mul_div_right _ _ hpos]
        apply UInt8.toNat_inj.mp
        simp only [UInt8.toNat_ofNat', Nat.reducePow]
        omega
      rw [hmul, toBytes_succ, hhead, ih, toBytes_succ]

theorem toBytes_ofBytes (bs : List UInt8) : toBytes bs.length (ofBytes bs) = bs := by
  induction bs with
  | nil => rfl
  | cons b bs ih =>
      have hpos : 0 < 256 ^ bs.length := Nat.pow_pos (by decide)
      have hhead : (b.toNat * 256 ^ bs.length + ofBytes bs) / 256 ^ bs.length = b.toNat := by
        rw [Nat.add_comm, Nat.add_mul_div_right _ _ hpos, Nat.div_eq_of_lt (ofBytes_lt bs),
          Nat.zero_add]
      rw [List.length_cons, toBytes_succ, ofBytes_cons, hhead, UInt8.ofNat_toNat, toBytes_mul_add,
        ih]

/-- The order of the bytes is the order of the numbers. -/
theorem toBytes_lt {w n m : ℕ} (hm : m < 256 ^ w) (h : n < m) : toBytes w n < toBytes w m := by
  induction w generalizing n m with
  | zero =>
      rw [pow_zero] at hm
      omega
  | succ w ih =>
      have hpos : 0 < 256 ^ w := Nat.pow_pos (by decide)
      have hmw : m / 256 ^ w < 256 := Nat.div_lt_of_lt_mul (by rwa [pow_succ] at hm)
      have hle : n / 256 ^ w ≤ m / 256 ^ w := Nat.div_le_div_right h.le
      have hdivn := Nat.div_add_mod n (256 ^ w)
      have hdivm := Nat.div_add_mod m (256 ^ w)
      rw [toBytes_succ, toBytes_succ, List.cons_lt_cons_iff]
      rcases hle.lt_or_eq with hlt | heq
      · left
        rwa [UInt8.lt_iff_toNat_lt, UInt8.toNat_ofNat', UInt8.toNat_ofNat',
          Nat.mod_eq_of_lt (hlt.trans hmw), Nat.mod_eq_of_lt hmw]
      · right
        refine ⟨by rw [heq], ?_⟩
        rw [← hdivn, ← hdivm, Nat.mul_comm, toBytes_mul_add, Nat.mul_comm, toBytes_mul_add]
        apply ih (Nat.mod_lt _ hpos)
        rw [heq] at hdivn
        omega

end Xmq.BigEndian
