import SlopSync.Cbor

/-! # The strict CBOR reader

`wire/cbor/cbor_reader.hpp`.  The reader enforces the deterministic profile: shortest heads, ascending keys, at most
four open containers, no tags, binary32 floats only.  A reader is the input that is left and the containers that are
open; a read that fails says why, and the decoders stop there. -/

namespace SlopSync

/-- Why something did not decode. -/
inductive DecodeError
  | truncated | malformed | profileViolation | depthExceeded | badCrc | unknownVersion | capacityExceeded
  deriving DecidableEq, Repr

structure CborReader where
  rest : Bytes
  stack : List CborFrame := []   -- innermost container first
  deriving DecidableEq, Repr

namespace CborReader

inductive MajorType
  | uint | negInt | byteString | textString | array | map | tag | simple
  deriving DecidableEq, Repr

def major (ib : UInt8) : Nat := ib.toNat / 32

def additional (ib : UInt8) : Nat := ib.toNat % 32

def peekType (r : CborReader) : Except DecodeError MajorType :=
  match r.rest with
  | [] => .error .truncated
  | ib :: _ => .ok (match major ib with
    | 0 => .uint | 1 => .negInt | 2 => .byteString | 3 => .textString | 4 => .array | 5 => .map | 6 => .tag
    | _ => .simple)

/-! ## Heads -/

structure Head where
  major : Nat
  arg : Nat
  totalBytes : Nat
  deriving DecidableEq, Repr

def bigEndianValue (bs : Bytes) : Nat := bs.foldl (fun v b => v * 256 + b.toNat) 0

/-- How many bytes the argument takes; none for the reserved forms. -/
def argBytes : Nat → Nat
  | 24 => 1 | 25 => 2 | 26 => 4 | 27 => 8
  | _ => 0

/-- The least argument that needs so many bytes. -/
def minForSize : Nat → Nat
  | 1 => 24 | 2 => 256 | 4 => 65536
  | _ => 4294967296

def parseHeadRaw (r : CborReader) : Except DecodeError Head :=
  match r.rest with
  | [] => .error .truncated
  | ib :: more =>
    let ai := additional ib
    let nbytes := argBytes ai
    if major ib = 6 then .error .profileViolation
    else if major ib = 7 then .error .malformed
    else if ai ≤ 23 then .ok ⟨major ib, ai, 1⟩
    else if nbytes = 0 then .error (if ai = 31 then .profileViolation else .malformed)
    else if more.length < nbytes then .error .truncated
    else
      let v := bigEndianValue (more.take nbytes)
      if v < minForSize nbytes then .error .profileViolation else .ok ⟨major ib, v, 1 + nbytes⟩

inductive SimpleKind
  | false | true | null | float32
  deriving DecidableEq, Repr

structure SimpleHead where
  kind : SimpleKind
  floatBits : UInt32
  totalBytes : Nat
  deriving DecidableEq, Repr

/-- Major type 7: false, true, null and binary32 are all there is. -/
def parseSimpleRaw (r : CborReader) : Except DecodeError SimpleHead :=
  match r.rest with
  | [] => .error .truncated
  | ib :: more =>
    if major ib ≠ 7 then .error .malformed
    else match additional ib with
      | 20 => .ok ⟨.false, 0, 1⟩
      | 21 => .ok ⟨.true, 0, 1⟩
      | 22 => .ok ⟨.null, 0, 1⟩
      | 26 =>
        if more.length < 4 then .error .truncated
        else .ok ⟨.float32, UInt32.ofNat (bigEndianValue (more.take 4)), 5⟩
      | 28 | 29 | 30 => .error .malformed
      | _ => .error .profileViolation

/-! ## Items -/

/-- Pass `n` bytes, which fill one slot of the innermost container. -/
def advance (r : CborReader) (n : Nat) : CborReader :=
  { rest := r.rest.drop n, stack := CborWriter.consume r.stack }

/-- Enter a container.  An empty one is left at once. -/
def enterContainer (r : CborReader) (expectedMajor : Nat) (isMap : Bool) : Except DecodeError (Nat × CborReader) := do
  let h ← r.parseHeadRaw
  if h.major ≠ expectedMajor then .error .malformed
  else if CborWriter.kMaxDepth < r.stack.length + 1 then .error .depthExceeded
  else if 0xFFFFFFFF < h.arg then .error .malformed
  else if h.arg = 0 then .ok (0, r.advance h.totalBytes)
  else
    let frame : CborFrame := { isMap, remaining := if isMap then h.arg * 2 else h.arg }
    .ok (h.arg, { rest := r.rest.drop h.totalBytes, stack := frame :: r.stack })

def readMapHeader (r : CborReader) : Except DecodeError (Nat × CborReader) := r.enterContainer 5 true

def readArrayHeader (r : CborReader) : Except DecodeError (Nat × CborReader) := r.enterContainer 4 false

/-- A key of the innermost container, which must be a map with smaller keys so far. -/
def readKey (r : CborReader) : Except DecodeError (Nat × CborReader) := do
  let h ← r.parseHeadRaw
  if h.major ≠ 0 then .error .malformed
  else match r.stack with
    | [] => .error .malformed
    | f :: fs =>
      if !f.isMap then .error .malformed
      else if f.lastKey.any (h.arg ≤ ·) then .error .profileViolation
      else .ok (h.arg, { r with stack := { f with lastKey := some h.arg } :: fs }.advance h.totalBytes)

def readUint (r : CborReader) : Except DecodeError (UInt64 × CborReader) := do
  let h ← r.parseHeadRaw
  if h.major ≠ 0 then .error .malformed else .ok (UInt64.ofNat h.arg, r.advance h.totalBytes)

def readInt (r : CborReader) : Except DecodeError (Int64 × CborReader) := do
  let h ← r.parseHeadRaw
  if h.major = 0 then .ok (Int64.ofNat h.arg, r.advance h.totalBytes)
  else if h.major = 1 then .ok (-1 - Int64.ofNat h.arg, r.advance h.totalBytes)
  else .error .malformed

def readBool (r : CborReader) : Except DecodeError (Bool × CborReader) := do
  let s ← r.parseSimpleRaw
  match s.kind with
  | .false => .ok (false, r.advance s.totalBytes)
  | .true => .ok (true, r.advance s.totalBytes)
  | _ => .error .malformed

/-- The bit pattern of a binary32. -/
def readF32 (r : CborReader) : Except DecodeError (UInt32 × CborReader) := do
  let s ← r.parseSimpleRaw
  if s.kind = .float32 then .ok (s.floatBits, r.advance s.totalBytes) else .error .malformed

def readStr (r : CborReader) (expectedMajor : Nat) : Except DecodeError (Bytes × CborReader) := do
  let h ← r.parseHeadRaw
  let tail := r.rest.drop h.totalBytes
  if h.major ≠ expectedMajor then .error .malformed
  else if tail.length < h.arg then .error .truncated
  else .ok (tail.take h.arg, r.advance (h.totalBytes + h.arg))

def readTstr (r : CborReader) : Except DecodeError (Bytes × CborReader) := r.readStr 3

def readBstr (r : CborReader) : Except DecodeError (Bytes × CborReader) := r.readStr 2

/-! ## Skipping -/

/-- `n` times `f`, from one reader to the next. -/
def times (f : CborReader → Except DecodeError CborReader) : Nat → CborReader → Except DecodeError CborReader
  | 0, r => .ok r
  | n + 1, r => do times f n (← f r)

/-- Skip one value that is open at most `levels` deep.  An open container is one level, and a fifth is refused. -/
def skipWithin : Nat → CborReader → Except DecodeError CborReader
  | 0, _ => .error .depthExceeded
  | levels + 1, r => do
    match ← r.peekType with
    | .uint => return (← r.readUint).2
    | .negInt => return (← r.readInt).2
    | .byteString => return (← r.readBstr).2
    | .textString => return (← r.readTstr).2
    | .tag => .error .profileViolation
    | .array =>
      let (n, r) ← r.readArrayHeader
      times (skipWithin levels) n r
    | .map =>
      let (n, r) ← r.readMapHeader
      times (fun r => do skipWithin levels (← r.readKey).2) n r
    | .simple =>
      let s ← r.parseSimpleRaw
      return r.advance s.totalBytes

def skipValue (r : CborReader) : Except DecodeError CborReader := skipWithin (CborWriter.kMaxDepth + 1) r

end CborReader

end SlopSync
