import Mathlib
import FuseExt2.Device

/-! Bit arrays over bytes of the device. Bit 0 of a byte is its highest. -/

namespace FuseExt2

open ByteStore

/-- `t_bitarray`: the address of the bytes, or NULL, and their number. -/
structure Bitarray where
  bitarray : Option Nat
  size : Nat

def bitarrayGetMaxBit (self : Bitarray) : Nat := self.size * 8 % 2 ^ 32

/-- `BIT_IN_CHAR(bit)`. -/
def bitInChar (bit : Nat) : UInt8 := UInt8.ofNat (2 ^ (7 - bit % 8))

def bitarrayTestBit (m : Memory) (self : Bitarray) (bit : Nat) : Except Fault Bool :=
  match deref self.bitarray with
  | .error fault => .error fault
  | .ok bytes => .ok (m (bytes + bit / 8) &&& bitInChar bit != 0)

def bitarraySetBit (m : Memory) (self : Bitarray) (bit : Nat) : Except Fault Memory :=
  if bitarrayGetMaxBit self ≤ bit then .ok m
  else match deref self.bitarray with
    | .error fault => .error fault
    | .ok bytes => .ok (Function.update m (bytes + bit / 8) (m (bytes + bit / 8) ||| bitInChar bit))

def bitarrayCleanBit (m : Memory) (self : Bitarray) (bit : Nat) : Except Fault Memory :=
  if bitarrayGetMaxBit self ≤ bit then .ok m
  else match deref self.bitarray with
    | .error fault => .error fault
    | .ok bytes => .ok (Function.update m (bytes + bit / 8) (m (bytes + bit / 8) &&& ~~~ bitInChar bit))

theorem bitInChar_toNat (bit : Nat) : (bitInChar bit).toNat = 2 ^ (7 - bit % 8) := by
  have h : 2 ^ (7 - bit % 8) ≤ 2 ^ 7 := Nat.pow_le_pow_right (by decide) (Nat.sub_le _ _)
  exact UInt8.toNat_ofNat_of_lt' (lt_of_le_of_lt h (by decide))

theorem and_bitInChar_ne_zero_iff (x : UInt8) (bit : Nat) :
    (x &&& bitInChar bit != 0) = x.toNat.testBit (7 - bit % 8) := by
  rw [Bool.eq_iff_iff, bne_iff_ne, ne_eq, ← UInt8.toNat_inj, UInt8.toNat_and, bitInChar_toNat, Nat.and_two_pow]
  cases x.toNat.testBit (7 - bit % 8) <;> simp

theorem or_bitInChar_eq_self {x : UInt8} {bit : Nat} (h : (x &&& bitInChar bit != 0) = true) :
    x ||| bitInChar bit = x := by
  rw [and_bitInChar_ne_zero_iff] at h
  rw [← UInt8.toNat_inj, UInt8.toNat_or, bitInChar_toNat]
  apply Nat.eq_of_testBit_eq
  intro i
  rw [Nat.testBit_or, Nat.testBit_two_pow]
  by_cases hi : 7 - bit % 8 = i
  · rw [← hi, h, Bool.true_or]
  · rw [decide_eq_false hi, Bool.or_false]

theorem bitarraySetBit_of_testBit {m : Memory} {self : Bitarray} {bit : Nat}
    (h : bitarrayTestBit m self bit = .ok true) : bitarraySetBit m self bit = .ok m := by
  by_cases hbit : bitarrayGetMaxBit self ≤ bit
  · rw [bitarraySetBit, if_pos hbit]
  · rw [bitarraySetBit, if_neg hbit]
    rw [bitarrayTestBit] at h
    cases hb : self.bitarray with
    | none =>
      rw [hb] at h
      cases h
    | some bytes =>
      rw [hb] at h
      simp only [deref_some, Except.ok.injEq] at h ⊢
      rw [or_bitInChar_eq_self h, Function.update_eq_self]

end FuseExt2
