import Mathlib.Algebra.Group.Nat.Defs
import Mathlib.Tactic.Common

/-! # 32-bit operators

What JavaScript's bitwise operators make of whole numbers.  An operand is taken modulo 2 ^ 32; a result has a sign, that
of `>>>` apart.  Numbers stay below 2 ^ 53 in what uses this, so sums are exact.

`uint32` is the word that a number stands for: every operator acts on it as the machine's does. -/

namespace SlopSync.Js

def bits (x : Int) : BitVec 32 := BitVec.ofInt 32 x

/-- `x | 0`. -/
def toInt32 (x : Int) : Int := (BitVec.ofInt 32 x).toInt

/-- `x >>> 0`. -/
def toUint32 (x : Int) : Int := (bits x).toNat

def and32 (x y : Int) : Int := (bits x &&& bits y).toInt

def or32 (x y : Int) : Int := (bits x ||| bits y).toInt

def xor32 (x y : Int) : Int := (bits x ^^^ bits y).toInt

def not32 (x : Int) : Int := (~~~bits x).toInt

def shl32 (x : Int) (n : Nat) : Int := (bits x <<< n).toInt

/-- `x >> n`. -/
def sar32 (x : Int) (n : Nat) : Int := ((bits x).sshiftRight n).toInt

/-- `x >>> n`. -/
def shr32 (x : Int) (n : Nat) : Int := (bits x >>> n).toNat

/-! ## What is stored

A typed array and the setters of a `DataView` take the low bits of a number. -/

def uint8 (x : Int) : UInt8 := ⟨(bits x).setWidth 8⟩

def uint16 (x : Int) : UInt16 := ⟨(bits x).setWidth 16⟩

def uint32 (x : Int) : UInt32 := ⟨bits x⟩

/-! ## Words -/

/-- The word of a number that is a word. -/
theorem bits_toNat (w : BitVec 32) : bits (w.toNat : Int) = w := by
  rw [bits, BitVec.ofInt_natCast, BitVec.ofNat_toNat, BitVec.setWidth_eq]

theorem bits_toInt (w : BitVec 32) : bits w.toInt = w := BitVec.ofInt_toInt

section

variable (x y : Int)

@[simp] theorem uint32_natCast (w : UInt32) : uint32 (w.toNat : Int) = w := congrArg UInt32.ofBitVec (bits_toNat w.toBitVec)

theorem uint32_ofNat (n : Nat) : uint32 (n : Int) = UInt32.ofNat n := congrArg UInt32.ofBitVec (BitVec.ofInt_natCast 32 n)

@[simp] theorem uint32_toUint32 : uint32 (toUint32 x) = uint32 x := congrArg UInt32.ofBitVec (bits_toNat _)

@[simp] theorem uint32_and32 : uint32 (and32 x y) = uint32 x &&& uint32 y := congrArg UInt32.ofBitVec (bits_toInt _)

@[simp] theorem uint32_or32 : uint32 (or32 x y) = uint32 x ||| uint32 y := congrArg UInt32.ofBitVec (bits_toInt _)

@[simp] theorem uint32_xor32 : uint32 (xor32 x y) = uint32 x ^^^ uint32 y := congrArg UInt32.ofBitVec (bits_toInt _)

@[simp] theorem uint32_not32 : uint32 (not32 x) = ~~~uint32 x := congrArg UInt32.ofBitVec (bits_toInt _)

/-- Addition is that of the words. -/
@[simp] theorem uint32_add : uint32 (x + y) = uint32 x + uint32 y := congrArg UInt32.ofBitVec (BitVec.ofInt_add x y)

/-- Where a shift of a word takes its distance from. -/
theorem shift_mod {n : Nat} (h : n < 32) : (UInt32.ofNat n).toNat % 32 = n := by
  rw [UInt32.toNat_ofNat']
  omega

/-- A shift to the left is that of the words. -/
theorem uint32_shl32 {n : Nat} (h : n < 32) : uint32 (shl32 x n) = uint32 x <<< UInt32.ofNat n := by
  refine UInt32.toNat_inj.mp ?_
  rw [UInt32.toNat_shiftLeft, shift_mod h]
  show (bits (shl32 x n)).toNat = _
  rw [shl32, bits_toInt, BitVec.toNat_shiftLeft]
  rfl

/-- A shift to the right is that of the words. -/
theorem uint32_shr32 {n : Nat} (h : n < 32) : uint32 (shr32 x n) = uint32 x >>> UInt32.ofNat n := by
  refine UInt32.toNat_inj.mp ?_
  rw [UInt32.toNat_shiftRight, shift_mod h]
  show (bits (shr32 x n)).toNat = _
  rw [shr32, bits_toNat, BitVec.toNat_ushiftRight]
  rfl

/-- A number without a sign is its word. -/
theorem toUint32_eq : toUint32 x = (uint32 x).toNat := rfl

/-- A mask that leaves nothing. -/
theorem and32_eq_zero : and32 x y = 0 ↔ uint32 x &&& uint32 y = 0 := by
  rw [← UInt32.toBitVec_inj, and32, show (0 : Int) = (0#32).toInt by rfl, BitVec.toInt_inj]
  rfl

/-- Bits below the sign make a number without one. -/
theorem and32_eq_toNat {m : Nat} (hm : m < 2 ^ 31) : and32 x m = ((uint32 x &&& UInt32.ofNat m).toNat : Int) := by
  have hle : (uint32 x &&& UInt32.ofNat m).toNat ≤ m := by
    rw [UInt32.toNat_and, UInt32.toNat_ofNat', Nat.mod_eq_of_lt (by omega)]
    exact Nat.and_le_right
  have hword : bits x &&& bits m = (uint32 x &&& UInt32.ofNat m).toBitVec := by
    rw [UInt32.toBitVec_and, bits, bits, BitVec.ofInt_natCast]
    rfl
  rw [and32, hword, BitVec.toInt_eq_toNat_of_lt (by rw [UInt32.toNat_toBitVec]; omega), UInt32.toNat_toBitVec]

/-! ## Shifts of numbers that fit -/

theorem toInt_bits {n : Nat} (h : n < 2 ^ 31) : (bits n).toInt = n := by
  rw [bits, BitVec.ofInt_natCast, BitVec.toInt_eq_toNat_of_lt (by rw [BitVec.toNat_ofNat]; omega), BitVec.toNat_ofNat]
  omega

/-- On numbers that fit, a shift to the right divides. -/
theorem sar32_natCast {m : Nat} (n : Nat) (h : m < 2 ^ 31) : sar32 m n = (m / 2 ^ n : Nat) := by
  rw [sar32, BitVec.toInt_sshiftRight, toInt_bits h, Int.shiftRight_eq_div_pow]
  norm_cast

/-- On numbers that stay below 2^31, a shift to the left multiplies. -/
theorem shl32_natCast {m n : Nat} (h : m * 2 ^ n < 2 ^ 31) : shl32 m n = (m * 2 ^ n : Nat) := by
  have hword : bits m <<< n = bits (m * 2 ^ n : Nat) := by
    refine BitVec.eq_of_toNat_eq ?_
    rw [BitVec.toNat_shiftLeft, bits, bits, BitVec.ofInt_natCast, BitVec.ofInt_natCast, BitVec.toNat_ofNat,
      BitVec.toNat_ofNat, Nat.shiftLeft_eq, Nat.mod_mul_mod]
  rw [shl32, hword, toInt_bits h]

/-! ## Bytes -/

@[simp] theorem uint8_natCast (b : UInt8) : uint8 (b.toNat : Int) = b := by
  refine UInt8.toNat_inj.mp ?_
  rw [uint8, bits, BitVec.ofInt_natCast]
  show ((BitVec.ofNat 32 b.toNat).setWidth 8).toNat = b.toNat
  rw [BitVec.toNat_setWidth, BitVec.toNat_ofNat]
  have := b.toNat_lt
  omega

@[simp] theorem uint16_natCast (v : UInt16) : uint16 (v.toNat : Int) = v := by
  refine UInt16.toNat_inj.mp ?_
  rw [uint16, bits, BitVec.ofInt_natCast]
  show ((BitVec.ofNat 32 v.toNat).setWidth 16).toNat = v.toNat
  rw [BitVec.toNat_setWidth, BitVec.toNat_ofNat]
  have := v.toNat_lt
  omega

/-- Masking a byte cuts to it. -/
@[simp] theorem uint8_and : uint8 (and32 x 0xff) = uint8 x := by
  rw [uint8, uint8, and32, bits_toInt, BitVec.setWidth_and, show (bits 0xff).setWidth 8 = BitVec.allOnes 8 by rfl,
    BitVec.and_allOnes]

@[simp] theorem uint16_and : uint16 (and32 x 0xffff) = uint16 x := by
  rw [uint16, uint16, and32, bits_toInt, BitVec.setWidth_and, show (bits 0xffff).setWidth 16 = BitVec.allOnes 16 by rfl,
    BitVec.and_allOnes]

end

end SlopSync.Js
