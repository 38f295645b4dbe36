import TieredStore.Bytes.Word

/-!
# The internet checksum

The complement of the ones' complement sum of the 16-bit words of a string of bytes, each word least
significant byte first and an odd last byte a word of its own.  The sum is taken in 32 bits and its
carries are folded back until 16 bits hold it.
-/

namespace TieredStore.Routing

/-- Adds the words of the bytes to a sum of 32 bits. -/
def sumWords (sum : UInt32) : Bytes → UInt32
  | [] => sum
  | [last] => sum + last.toUInt32
  | lo :: hi :: rest => sumWords (sum + (lo.toUInt32 + hi.toUInt32 * 0x100)) rest

theorem toNat_carries (sum : UInt32) : (sum >>> (16 : UInt32)).toNat = sum.toNat / 0x10000 := by
  rw [UInt32.toNat_shiftRight]
  exact Nat.shiftRight_eq_div_pow sum.toNat 16

/-- Adding the carries back once is exact. -/
theorem toNat_fold (sum : UInt32) :
    ((sum &&& (0xFFFF : UInt32)) + (sum >>> (16 : UInt32))).toNat
      = sum.toNat % 0x10000 + sum.toNat / 0x10000 := by
  have hsum : sum.toNat < 0x100000000 := sum.toNat_lt
  have hand : (sum &&& (0xFFFF : UInt32)).toNat = sum.toNat % 0x10000 := by
    rw [UInt32.toNat_and]
    exact Nat.and_two_pow_sub_one_eq_mod sum.toNat 16
  rw [UInt32.toNat_add, hand, toNat_carries]
  apply Nat.mod_eq_of_lt
  omega

theorem carries_eq_zero_iff {sum : UInt32} : sum >>> 16 = 0 ↔ sum.toNat < 0x10000 := by
  rw [← UInt32.toNat_inj, toNat_carries]
  show sum.toNat / 0x10000 = 0 ↔ _
  omega

theorem fold_lt {sum : UInt32} (h : sum >>> 16 ≠ 0) :
    ((sum &&& (0xFFFF : UInt32)) + (sum >>> (16 : UInt32))).toNat < sum.toNat := by
  have hcarries : ¬sum.toNat < 0x10000 := fun hlt => h (carries_eq_zero_iff.2 hlt)
  rw [toNat_fold]
  omega

/-- Adds the carries above 16 bits back to the sum until there are none. -/
def foldCarries (sum : UInt32) : UInt32 :=
  if sum >>> 16 ≠ 0 then
    foldCarries ((sum &&& (0xFFFF : UInt32)) + (sum >>> (16 : UInt32)))
  else
    sum
termination_by sum.toNat
decreasing_by exact fold_lt ‹_›

/-- The checksum of a string of bytes, in 16 bits. -/
def checksum (bs : Bytes) : UInt32 :=
  ~~~foldCarries (sumWords 0 bs) &&& (0xFFFF : UInt32)

end TieredStore.Routing
