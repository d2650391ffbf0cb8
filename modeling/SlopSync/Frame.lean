import SlopSync.Cbor
import SlopSync.Registry

/-! # Frames

What both roles put on the wire: `util/byte_io.hpp`, the 8-byte header of `wire/frame_header.hpp`, and the ESTOP frame
of `wire/estop_frame.hpp`, which has no header and carries a CRC-32 (`wire/crc32.hpp`) instead. -/

namespace SlopSync

def le16 (v : UInt16) : Bytes := [v.toUInt8, (v >>> 8).toUInt8]

def le32 (v : UInt32) : Bytes := [v.toUInt8, (v >>> 8).toUInt8, (v >>> 16).toUInt8, (v >>> 24).toUInt8]

/-- Two bytes, the low one first; the caller has checked that they are there. -/
def getU16 (bs : Bytes) : UInt16 := (bs.getD 0 0).toUInt16 ||| (bs.getD 1 0).toUInt16 <<< 8

def getU32 (bs : Bytes) : UInt32 :=
  (bs.getD 0 0).toUInt32 ||| (bs.getD 1 0).toUInt32 <<< 8 ||| (bs.getD 2 0).toUInt32 <<< 16 |||
    (bs.getD 3 0).toUInt32 <<< 24

/-- The byte above `k` bits. -/
theorem or_byte (n k : Nat) : n % 2 ^ k ||| (n / 2 ^ k % 256) <<< k = n % 2 ^ (k + 8) := by
  have hlt : n % 2 ^ k < 2 ^ k := Nat.mod_lt _ (Nat.two_pow_pos k)
  rw [Nat.or_comm, ← Nat.shiftLeft_add_eq_or_of_lt hlt, Nat.shiftLeft_eq, Nat.pow_add, Nat.mod_mul, Nat.add_comm,
    Nat.mul_comm (2 ^ k)]

theorem byte_mod (n k : Nat) {w : Nat} (h : k + 8 ≤ w) :
    (n / 2 ^ k % 256) <<< k % 2 ^ w = (n / 2 ^ k % 256) <<< k := by
  refine Nat.mod_eq_of_lt ?_
  rw [Nat.shiftLeft_eq]
  calc n / 2 ^ k % 256 * 2 ^ k < 2 ^ 8 * 2 ^ k :=
        Nat.mul_lt_mul_of_pos_right (Nat.mod_lt _ (by decide)) (Nat.two_pow_pos k)
    _ = 2 ^ (k + 8) := by rw [← Nat.pow_add, Nat.add_comm]
    _ ≤ 2 ^ w := Nat.pow_le_pow_right (by decide) h

/-- A number is read as it was written. -/
theorem getU16_le16 (v : UInt16) (rest : Bytes) : getU16 (le16 v ++ rest) = v := by
  apply UInt16.toNat_inj.mp
  have h0 := or_byte v.toNat 8
  have h1 := byte_mod v.toNat 8 (w := 16) (by decide)
  simp only [getU16, le16, List.cons_append, List.getD_cons_zero, List.getD_cons_succ]
  simp only [UInt16.toNat_or, UInt16.toNat_shiftLeft, UInt8.toNat_toUInt16, UInt16.toNat_toUInt8,
    UInt16.toNat_shiftRight, UInt16.reduceToNat, Nat.shiftRight_eq_div_pow, Nat.reduceMod]
  rw [h1, h0, Nat.mod_eq_of_lt v.toNat_lt]

theorem getU32_le32 (v : UInt32) (rest : Bytes) : getU32 (le32 v ++ rest) = v := by
  apply UInt32.toNat_inj.mp
  simp only [getU32, le32, List.cons_append, List.getD_cons_zero, List.getD_cons_succ]
  simp only [UInt32.toNat_or, UInt32.toNat_shiftLeft, UInt8.toNat_toUInt32, UInt32.toNat_toUInt8,
    UInt32.toNat_shiftRight, UInt32.reduceToNat, Nat.shiftRight_eq_div_pow, Nat.reduceMod]
  rw [byte_mod v.toNat 8 (by decide), byte_mod v.toNat 16 (by decide), byte_mod v.toNat 24 (by decide)]
  rw [or_byte v.toNat 8, or_byte v.toNat 16, or_byte v.toNat 24, Nat.mod_eq_of_lt v.toNat_lt]

def kFrameBufferCapacity : Nat := 512

/-- Header and payload, or nothing when they do not fit the frame buffer. -/
def encodeFrame (type : FrameType) (ch seq : UInt16) (payload : Bytes) : Option Bytes :=
  if kFrameBufferCapacity - Limits.headerBytes < payload.length then none
  else some ([type.code, 0] ++ le16 ch ++ le16 seq ++ le16 (UInt16.ofNat payload.length) ++ payload)

/-! ## CRC-32 -/

/-- One bit of the reflected division. -/
def crc32Bit (c : UInt32) : UInt32 := if c &&& 1 = 1 then (0xEDB88320 : UInt32) ^^^ (c >>> 1) else c >>> 1

/-- An entry of `kCrc32Table`. -/
def crc32Entry (i : UInt32) : UInt32 :=
  crc32Bit (crc32Bit (crc32Bit (crc32Bit (crc32Bit (crc32Bit (crc32Bit (crc32Bit i)))))))

def crc32Update (state : UInt32) (data : Bytes) : UInt32 :=
  data.foldl (fun st b => crc32Entry ((st ^^^ b.toUInt32) &&& 0xFF) ^^^ (st >>> 8)) state

def crc32 (data : Bytes) : UInt32 := crc32Update 0xFFFFFFFF data ^^^ 0xFFFFFFFF

/-! ## The ESTOP frame -/

structure EstopFrame where
  cause : UInt8
  origin : UInt8
  seq : UInt16
  deriving DecidableEq, Repr

/-- Magic, cause, origin and sequence number, then the checksum of all of them. -/
def encodeEstop (f : EstopFrame) : Bytes :=
  let body := [0xE5, 0xE5, 0xE5, 0xE5, f.cause, f.origin] ++ le16 f.seq
  body ++ le32 (crc32 body)

end SlopSync
