import Mathlib.Data.Rat.Floor
import SlopSync.F32
import SlopSync.Frame

/-! # Packed fields

`wire/packed/layout_codec.hpp` at the scale 1, where a wire value is the rounded physical value.  A `float` is the bit
pattern the program stores; `F32.ofBits` is the number it stands for.

* `readValue_packField` — a number a field can hold is read back as it was packed;
* `readValue_packStringField` — so is a text without a NUL that fits.
-/

namespace SlopSync

namespace F32

/-- The number of a binary32 bit pattern. -/
def ofBits (b : UInt32) : F32 :=
  let e : Nat := b.toNat / 2 ^ 23 % 2 ^ 8
  let m : Nat := b.toNat % 2 ^ 23
  let sign : ℚ := if b.toNat < 2 ^ 31 then 1 else -1
  if e = 255 then if m ≠ 0 then nan else if b.toNat < 2 ^ 31 then posInf else negInf
  else if e = 0 then fin (sign * (m / 2 ^ 149))
  else fin (sign * ((2 ^ 23 + m) * 2 ^ e / 2 ^ 150))

/-- `n / 2 ^ k` to the nearest, a tie to the even one. -/
def roundShift (n k : Nat) : Nat :=
  let q := n / 2 ^ k
  let twice := 2 * (n % 2 ^ k)
  if twice < 2 ^ k ∨ twice = 2 ^ k ∧ q % 2 = 0 then q else q + 1

/-- `float(n)` of an unsigned 64-bit integer.  A mantissa that rounds up to `2 ^ 24` carries into the exponent. -/
def bitsOfNat (n : Nat) : UInt32 :=
  if n = 0 then 0
  else
    let l := n.log2
    let m := if l ≤ 23 then n * 2 ^ (23 - l) else roundShift n (l - 23)
    UInt32.ofNat ((127 + l) * 2 ^ 23 + (m - 2 ^ 23))

/-- `float(k)` of a signed one. -/
def bitsOfInt (k : Int) : UInt32 :=
  if 0 ≤ k then bitsOfNat k.toNat else 0x80000000 ||| bitsOfNat (-k).toNat

/-- `std::llround`: half away from zero.  Out of range the result is not specified; this is the one of x86-64. -/
def llround : F32 → Int
  | fin q =>
    let k := if 0 ≤ q then ⌊q + 1 / 2⌋ else -⌊-q + 1 / 2⌋
    if -2 ^ 63 ≤ k ∧ k < 2 ^ 63 then k else -2 ^ 63
  | _ => -2 ^ 63

end F32

inductive PackedFieldType
  | u8 | i8 | u16 | i16 | u32 | i32 | f32 | bitfield8 | str16 | str32 | str64
  deriving DecidableEq, Repr

namespace PackedFieldType

def wireSize : PackedFieldType → Nat
  | u8 | i8 | bitfield8 => 1
  | u16 | i16 => 2
  | u32 | i32 | f32 => 4
  | str16 => 16
  | str32 => 32
  | str64 => 64

def isString : PackedFieldType → Bool
  | str16 | str32 | str64 => true
  | _ => false

/-- The integers a field holds; a float field holds none. -/
def Holds (k : Int) : PackedFieldType → Prop
  | u8 | bitfield8 => 0 ≤ k ∧ k < 2 ^ 8
  | i8 => -2 ^ 7 ≤ k ∧ k < 2 ^ 7
  | u16 => 0 ≤ k ∧ k < 2 ^ 16
  | i16 => -2 ^ 15 ≤ k ∧ k < 2 ^ 15
  | u32 => 0 ≤ k ∧ k < 2 ^ 32
  | i32 => -2 ^ 31 ≤ k ∧ k < 2 ^ 31
  | f32 | str16 | str32 | str64 => False

instance (k : Int) (t : PackedFieldType) : Decidable (t.Holds k) := by
  cases t <;> unfold Holds <;> infer_instance

/-- `packField`. -/
def packField (t : PackedFieldType) (physical : UInt32) : Bytes :=
  let k := (F32.ofBits physical).llround
  match t with
  | u8 | bitfield8 => [UInt8.ofInt k]
  | i8 => [(Int8.ofInt k).toUInt8]
  | u16 => le16 (UInt16.ofInt k)
  | i16 => le16 (Int16.ofInt k).toUInt16
  | u32 => le32 (UInt32.ofInt k)
  | i32 => le32 (Int32.ofInt k).toUInt32
  | f32 => le32 physical
  | str16 => List.replicate 16 0
  | str32 => List.replicate 32 0
  | str64 => List.replicate 64 0

/-- `packStringField`: cut to the width of the field, or filled up with NULs. -/
def packStringField (t : PackedFieldType) (text : Bytes) : Bytes :=
  text.take t.wireSize ++ List.replicate (t.wireSize - text.length) 0

/-- What the bytes of a field say. -/
inductive Shown
  | number (x : F32)
  | text (s : Bytes)
  deriving DecidableEq, Repr

/-- The number at the front of `bs`, or the text up to the first NUL: `readStringField`, and `readField` before it rounds
an integer to a float. -/
def readValue (t : PackedFieldType) (bs : Bytes) : Shown :=
  match t with
  | u8 | bitfield8 => .number (.fin (bs.getD 0 0).toNat)
  | i8 => .number (.fin (bs.getD 0 0).toInt8.toInt)
  | u16 => .number (.fin (getU16 bs).toNat)
  | i16 => .number (.fin (getU16 bs).toInt16.toInt)
  | u32 => .number (.fin (getU32 bs).toNat)
  | i32 => .number (.fin (getU32 bs).toInt32.toInt)
  | f32 => .number (.ofBits (getU32 bs))
  | str16 | str32 | str64 => .text ((bs.take t.wireSize).takeWhile (· ≠ 0))

@[simp] theorem length_packField (t : PackedFieldType) (x : UInt32) : (t.packField x).length = t.wireSize := by
  cases t <;> simp [packField, wireSize, le16, le32]

@[simp] theorem length_packStringField (t : PackedFieldType) (s : Bytes) :
    (t.packStringField s).length = t.wireSize := by
  simp only [packStringField, List.length_append, List.length_take, List.length_replicate]
  omega

/-! ## What is packed is read -/

theorem toNat_emod {k : Int} {n : Nat} (h0 : 0 ≤ k) (hk : k < 2 ^ n) : ((k % 2 ^ n).toNat : Int) = k := by
  rw [Int.emod_eq_of_lt h0 hk, Int.toNat_of_nonneg h0]

theorem toNat_ofInt8 {k : Int} (h0 : 0 ≤ k) (hk : k < 2 ^ 8) : ((UInt8.ofInt k).toNat : Int) = k := by
  have h := toNat_emod h0 hk
  rw [UInt8.ofInt, UInt8.toNat_ofNat', Nat.mod_eq_of_lt (by omega), h]

theorem toNat_ofInt16 {k : Int} (h0 : 0 ≤ k) (hk : k < 2 ^ 16) : ((UInt16.ofInt k).toNat : Int) = k := by
  have h := toNat_emod h0 hk
  rw [UInt16.ofInt, UInt16.toNat_ofNat', Nat.mod_eq_of_lt (by omega), h]

theorem toNat_ofInt32 {k : Int} (h0 : 0 ≤ k) (hk : k < 2 ^ 32) : ((UInt32.ofInt k).toNat : Int) = k := by
  have h := toNat_emod h0 hk
  rw [UInt32.ofInt, UInt32.toNat_ofNat', Nat.mod_eq_of_lt (by omega), h]

/-- **A number a field can hold is read back**: a rounded integer in its range, or any float in a float field. -/
theorem readValue_packField {t : PackedFieldType} {x : UInt32} (rest : Bytes) (h : t.Holds (F32.ofBits x).llround) :
    t.readValue (t.packField x ++ rest) = .number (.fin (F32.ofBits x).llround) := by
  generalize hk : (F32.ofBits x).llround = k at h
  cases t <;> simp only [Holds] at h
  case u8 | bitfield8 =>
    have := toNat_ofInt8 h.1 h.2
    simp only [readValue, packField, hk, List.cons_append, List.getD_cons_zero]
    exact congrArg (fun z : Int => Shown.number (.fin (z : ℚ))) this
  case u16 =>
    have := toNat_ofInt16 h.1 h.2
    simp only [readValue, packField, hk, getU16_le16]
    exact congrArg (fun z : Int => Shown.number (.fin (z : ℚ))) this
  case u32 =>
    have := toNat_ofInt32 h.1 h.2
    simp only [readValue, packField, hk, getU32_le32]
    exact congrArg (fun z : Int => Shown.number (.fin (z : ℚ))) this
  case i8 =>
    simp only [readValue, packField, hk, List.cons_append, List.getD_cons_zero]
    rw [Int8.toInt8_toUInt8, Int8.toInt_ofInt_of_le h.1 h.2]
  case i16 =>
    simp only [readValue, packField, hk, getU16_le16]
    rw [Int16.toInt16_toUInt16, Int16.toInt_ofInt_of_le h.1 h.2]
  case i32 =>
    simp only [readValue, packField, hk, getU32_le32]
    rw [Int32.toInt32_toUInt32, Int32.toInt_ofInt_of_le h.1 h.2]

theorem readValue_packField_f32 (x : UInt32) (rest : Bytes) :
    f32.readValue (f32.packField x ++ rest) = .number (.ofBits x) := by
  simp only [readValue, packField, getU32_le32]

theorem takeWhile_padded {s : Bytes} (h : 0 ∉ s) (n : Nat) :
    (s ++ List.replicate n 0).takeWhile (· ≠ 0) = s := by
  rw [List.takeWhile_append_of_pos (fun b hb => by simpa using fun e : b = 0 => h (e ▸ hb))]
  cases n <;> simp [List.replicate_succ]

/-- **A text without a NUL that fits its field is read back.** -/
theorem readValue_packStringField {t : PackedFieldType} {s : Bytes} (rest : Bytes) (ht : t.isString)
    (hlen : s.length ≤ t.wireSize) (hnul : 0 ∉ s) : t.readValue (t.packStringField s ++ rest) = .text s := by
  have htake : (t.packStringField s ++ rest).take t.wireSize = s ++ List.replicate (t.wireSize - s.length) 0 := by
    rw [List.take_left' (length_packStringField t s), packStringField, List.take_of_length_le hlen]
  have hpad := takeWhile_padded hnul (t.wireSize - s.length)
  cases t <;> simp only [isString, Bool.false_eq_true] at ht <;> simp only [readValue, htake, hpad]

end PackedFieldType

end SlopSync
