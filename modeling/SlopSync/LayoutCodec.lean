import SlopSync.CborReader
import SlopSync.Packed

/-! # The layout codec

`decodeByLayout` of `wire/packed/layout_codec.hpp`: the fields of a layout, one behind the other.  A `float` is its bit
pattern; `div` is the division of two of them. -/

namespace SlopSync

/-- Where a field's wire value comes from. -/
inductive WireValue
  | int (k : Int)
  | f32 (bits : UInt32)
  | text (s : Bytes)
  deriving DecidableEq, Repr

structure LayoutField where
  type : PackedFieldType
  scale : UInt32 := 0x3F800000
  deriving DecidableEq, Repr

namespace LayoutField

def wireSize (f : LayoutField) : Nat := f.type.wireSize

def isString (f : LayoutField) : Bool := f.type.isString

/-- The view, up to the first NUL or the width of the field. -/
def readStringField (f : LayoutField) (bs : Bytes) : Bytes :=
  if f.isString = false then []
  else if bs.length < f.wireSize then []
  else (bs.take f.wireSize).takeWhile (· ≠ 0)

/-- The bytes as `readField` takes them, before the scale, and as `readStringField` does. -/
def wireValue (f : LayoutField) (bs : Bytes) : WireValue :=
  match f.type with
  | .u8 | .bitfield8 => .int (bs.getD 0 0).toNat
  | .i8 => .int (bs.getD 0 0).toInt8.toInt
  | .u16 => .int (getU16 bs).toNat
  | .i16 => .int (getU16 bs).toInt16.toInt
  | .u32 => .int (getU32 bs).toNat
  | .i32 => .int (getU32 bs).toInt32.toInt
  | .f32 => .f32 (getU32 bs)
  | .str16 | .str32 | .str64 => .text (f.readStringField bs)

/-- The physical value: a bitfield has no scale, a string no number. -/
def readField (div : UInt32 → UInt32 → UInt32) (f : LayoutField) (bs : Bytes) : UInt32 :=
  match f.wireValue bs with
  | .int k => if f.type = .bitfield8 then F32.bitsOfInt k else div (F32.bitsOfInt k) f.scale
  | .f32 bits => div bits f.scale
  | .text _ => 0

end LayoutField

def layoutWireSize (fields : List LayoutField) : Nat := fields.foldl (fun s f => s + f.wireSize) 0

/-- The loop of `decodeByLayout`, with the values it writes. -/
def decodeFrom (div : UInt32 → UInt32 → UInt32) (payload : Bytes) :
    List LayoutField → Nat → Except DecodeError Nat × List UInt32
  | [], offset => (.ok offset, [])
  | f :: fields, offset =>
    if payload.length < offset + f.wireSize then (.error .truncated, [])
    else
      let (consumed, values) := decodeFrom div payload fields (offset + f.wireSize)
      (consumed, f.readField div ((payload.drop offset).take f.wireSize) :: values)

/-- The bytes consumed and the values written to `outPhysical`, which has room for `room` of them. -/
def decodeByLayout (div : UInt32 → UInt32 → UInt32) (fields : List LayoutField) (payload : Bytes) (room : Nat) :
    Except DecodeError Nat × List UInt32 :=
  if room < fields.length then (.error .capacityExceeded, []) else decodeFrom div payload fields 0

end SlopSync
