import SlopSync.Js.Cbor
import SlopSync.Js.OrderedMap

/-! # Packed fields in JavaScript

`decodePacked` of `clients/js/catalog.js`.  The numbers of a catalog are numbers of `F32`; `DataView` reads a binary32 by
its bits. -/

namespace SlopSync.Js

structure LayoutEntry where
  name : String := ""
  type : Nat
  scale : F32 := .fin 1
  bits : Option (List String) := none
  declaredSize : Option Nat := none

/-- `PACKED_SIZE`. -/
def packedSize (type : Nat) : Option Nat := [1, 1, 2, 2, 4, 4, 4, 1, 16, 32, 64][type]?

inductive Raw
  | int (k : Int)
  | f32 (bits : UInt32)
  | str (cs : List Char)
  deriving DecidableEq, Repr

/-- The bytes without the zeros at their end. -/
def trimZeros (bs : Bytes) : Bytes := (bs.reverse.dropWhile (· = 0)).reverse

/-- The `switch` over `PACKED`, at the front of `bs`; `size` is the width of the type. -/
def readRaw (type size : Nat) (bs : Bytes) : Raw :=
  match type with
  | 0 | 7 => .int (bs.getD 0 0).toNat
  | 1 => .int (bs.getD 0 0).toInt8.toInt
  | 2 => .int (getU16 bs).toNat
  | 3 => .int (getU16 bs).toInt16.toInt
  | 4 => .int (getU32 bs).toNat
  | 5 => .int (getU32 bs).toInt32.toInt
  | 6 => .f32 (getU32 bs)
  | 8 | 9 | 10 => .str (textDecode (trimZeros (bs.take size)))
  | _ => .int 0

/-- A field that was read, and where. -/
structure FieldRead where
  field : LayoutEntry
  off : Nat
  raw : Raw

/-- The loop of `decodePacked`: it stops at a short payload and at a type of unknown size. -/
def readFields (payload : Bytes) : List LayoutEntry → Nat → List FieldRead
  | [], _ => []
  | f :: layout, off =>
    match packedSize f.type with
    | none =>
      match f.declaredSize with
      | none => []
      | some size => if payload.length < off + size then [] else readFields payload layout (off + size)
    | some size =>
      if payload.length < off + size then []
      else ⟨f, off, readRaw f.type size (payload.drop off)⟩ :: readFields payload layout (off + size)

/-- What is stored under a name; a number may be divided by a scale. -/
inductive PackedShown
  | str (cs : List Char)
  | number (raw : Raw)
  | quotient (raw : Raw) (scale : F32)
  | flags (bits : OrderedMap String Bool)

/-- `<name>_bits`. -/
def bitsOut (names : List String) (raw : Int) : OrderedMap String Bool :=
  (List.range 8).foldl (fun out b =>
    let name := names.getD b ""
    if name = "" then out else out.set name (raw.toNat.testBit b)) .empty

/-- `f.scale || 1` -/
def scaleOrOne (scale : F32) : F32 := if scale = .fin 0 ∨ scale = .nan then .fin 1 else scale

def storeField (out : OrderedMap String PackedShown) (r : FieldRead) : OrderedMap String PackedShown :=
  match r.raw with
  | .str cs => out.set r.field.name (.str cs)
  | raw =>
    if r.field.type = 7 then
      let out := out.set r.field.name (.number raw)
      match r.field.bits, raw with
      | some names, .int k => out.set (r.field.name ++ "_bits") (.flags (bitsOut names k))
      | _, _ => out
    else
      let scale := scaleOrOne r.field.scale
      out.set r.field.name (if scale = .fin 1 then .number raw else .quotient raw scale)

def decodePacked (payload : Bytes) (layout : List LayoutEntry) : OrderedMap String PackedShown :=
  (readFields payload layout 0).foldl storeField .empty

end SlopSync.Js
