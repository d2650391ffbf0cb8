import SlopSync.CborReader

/-! # The CBOR cursor

`CborReader` of `wire/cbor/cbor_reader.hpp` once more, as the object it is: a call that fails leaves the cursor somewhere,
and a string is a place in the input.  `CborReader` models what a decoder gets from it. -/

namespace SlopSync

structure CborCursor where
  input : Bytes
  pos : Nat := 0
  stack : List CborFrame := []   -- the `_depth` frames in use, innermost first
  deriving DecidableEq, Repr

namespace CborCursor

open CborReader (MajorType Head SimpleHead SimpleKind)

/-- A view into the input. -/
structure View where
  start : Nat
  length : Nat
  deriving DecidableEq, Repr

/-- What is left of the input. -/
def reader (c : CborCursor) : CborReader := { rest := c.input.drop c.pos, stack := c.stack }

def peekType (c : CborCursor) : Except DecodeError MajorType := c.reader.peekType

def parseHeadRaw (c : CborCursor) : Except DecodeError Head := c.reader.parseHeadRaw

def parseSimpleRaw (c : CborCursor) : Except DecodeError SimpleHead := c.reader.parseSimpleRaw

/-! ## Frames -/

/-- Leave the frame `f` and those behind it, as far as they are exhausted; each one fills a slot of its parent. -/
def afterConsume (f : CborFrame) : List CborFrame → List CborFrame
  | [] => if f.remaining = 0 then [] else [f]
  | g :: fs => if f.remaining = 0 then afterConsume { g with remaining := g.remaining - 1 } fs else f :: g :: fs

def consumeOne : List CborFrame → List CborFrame
  | [] => []
  | f :: fs => afterConsume { f with remaining := f.remaining - 1 } fs

/-- Pass the bytes of an item, which fills a slot. -/
def consume (c : CborCursor) (n : Nat) : CborCursor := { c with pos := c.pos + n, stack := consumeOne c.stack }

/-! ## Reads -/

/-- The count; the cursor is inside, or behind an empty container. -/
def enterContainer (expectedMajor : Nat) (isMap : Bool) (c : CborCursor) : Except DecodeError Nat × CborCursor :=
  match c.parseHeadRaw with
  | .error e => (.error e, c)
  | .ok h =>
    if h.major ≠ expectedMajor then (.error .malformed, c)
    else if CborWriter.kMaxDepth < c.stack.length + 1 then (.error .depthExceeded, c)
    else if 0xFFFFFFFF < h.arg then (.error .malformed, c)
    else
      let frame : CborFrame := { isMap, remaining := if isMap then h.arg * 2 else h.arg }
      (.ok h.arg, { c with pos := c.pos + h.totalBytes, stack := afterConsume frame c.stack })

def readMapHeader (c : CborCursor) : Except DecodeError Nat × CborCursor := enterContainer 5 true c

def readArrayHeader (c : CborCursor) : Except DecodeError Nat × CborCursor := enterContainer 4 false c

def readKey (c : CborCursor) : Except DecodeError Nat × CborCursor :=
  match c.parseHeadRaw with
  | .error e => (.error e, c)
  | .ok h =>
    if h.major ≠ 0 then (.error .malformed, c)
    else match c.stack with
      | [] => (.error .malformed, c)
      | f :: fs =>
        if !f.isMap then (.error .malformed, c)
        else if f.lastKey.any (h.arg ≤ ·) then (.error .profileViolation, c)
        else (.ok h.arg, { c with stack := { f with lastKey := some h.arg } :: fs }.consume h.totalBytes)

/-- A value that its head gives, of the majors that `f` takes. -/
def readHead {α : Type} (f : Head → Option α) (c : CborCursor) : Except DecodeError α × CborCursor :=
  match c.parseHeadRaw with
  | .error e => (.error e, c)
  | .ok h =>
    match f h with
    | none => (.error .malformed, c)
    | some v => (.ok v, c.consume h.totalBytes)

def readUint (c : CborCursor) : Except DecodeError UInt64 × CborCursor :=
  readHead (fun h => if h.major = 0 then some (UInt64.ofNat h.arg) else none) c

def readInt (c : CborCursor) : Except DecodeError Int64 × CborCursor :=
  readHead (fun h =>
    if h.major = 0 then some (Int64.ofNat h.arg) else if h.major = 1 then some (-1 - Int64.ofNat h.arg) else none) c

/-- A value of major type 7, of the kinds that `f` takes. -/
def readSimple {α : Type} (f : SimpleHead → Option α) (c : CborCursor) : Except DecodeError α × CborCursor :=
  match c.parseSimpleRaw with
  | .error e => (.error e, c)
  | .ok s =>
    match f s with
    | none => (.error .malformed, c)
    | some v => (.ok v, c.consume s.totalBytes)

def readBool (c : CborCursor) : Except DecodeError Bool × CborCursor :=
  readSimple (fun s => if s.kind ≠ .false ∧ s.kind ≠ .true then none else some (s.kind == .true)) c

def readNull (c : CborCursor) : Except DecodeError Bool × CborCursor :=
  readSimple (fun s => if s.kind ≠ .null then none else some true) c

/-- The bit pattern. -/
def readF32 (c : CborCursor) : Except DecodeError UInt32 × CborCursor :=
  readSimple (fun s => if s.kind ≠ .float32 then none else some s.floatBits) c

/-- A string, compared with what remains: the length may be any 64-bit number. -/
def readStr (expectedMajor : Nat) (c : CborCursor) : Except DecodeError View × CborCursor :=
  match c.parseHeadRaw with
  | .error e => (.error e, c)
  | .ok h =>
    if h.major ≠ expectedMajor then (.error .malformed, c)
    else
      let start := c.pos + h.totalBytes
      if c.input.length - start < h.arg then (.error .truncated, c)
      else (.ok ⟨start, h.arg⟩, c.consume (h.totalBytes + h.arg))

def readTstr (c : CborCursor) : Except DecodeError View × CborCursor := readStr 3 c

def readBstr (c : CborCursor) : Except DecodeError View × CborCursor := readStr 2 c

/-! ## Skipping -/

/-- A skip, or none where it calls itself once more than allowed. -/
abbrev Skip := Option (Except DecodeError Bool × CborCursor)

/-- The result of a read, as that of a skip. -/
def skipped {α : Type} (r : Except DecodeError α × CborCursor) : Skip := some (r.1.map fun _ => true, r.2)

/-- `n` times, up to the first error. -/
def skipLoop (f : CborCursor → Skip) : Nat → CborCursor → Skip
  | 0, c => some (.ok true, c)
  | n + 1, c =>
    match f c with
    | some (.ok _, c) => skipLoop f n c
    | r => r

/-- `skipValue` with at most so many calls of it open at a time. -/
def skipWithin : Nat → CborCursor → Skip
  | 0, _ => none
  | calls + 1, c =>
    match c.peekType with
    | .error e => some (.error e, c)
    | .ok .uint => skipped c.readUint
    | .ok .negInt => skipped c.readInt
    | .ok .byteString => skipped c.readBstr
    | .ok .textString => skipped c.readTstr
    | .ok .tag => some (.error .profileViolation, c)
    | .ok .array =>
      match c.readArrayHeader with
      | (.error e, c) => some (.error e, c)
      | (.ok n, c) => skipLoop (skipWithin calls) n c
    | .ok .map =>
      match c.readMapHeader with
      | (.error e, c) => some (.error e, c)
      | (.ok n, c) =>
        skipLoop (fun c =>
          match c.readKey with
          | (.error e, c) => some (.error e, c)
          | (.ok _, c) => skipWithin calls c) n c
    | .ok .simple =>
      match c.parseSimpleRaw with
      | .error e => some (.error e, c)
      | .ok s => some (.ok true, c.consume s.totalBytes)

/-- The call itself and four levels of recursion. -/
def skipValue (c : CborCursor) : Skip := skipWithin (CborWriter.kMaxDepth + 1) c

/-! ## Calls -/

inductive Call
  | peekType | readKey | readUint | readInt | readBool | readNull | readF32 | readTstr | readBstr | readMapHeader
  | readArrayHeader | skipValue
  deriving DecidableEq, Repr

/-- What a call returns: the error, the view of a string, or something else. -/
inductive Returned
  | error (e : DecodeError)
  | view (v : View)
  | value
  | lost                       -- `skipValue` went deeper than allowed
  deriving DecidableEq, Repr

def returned {α : Type} (r : Except DecodeError α × CborCursor) : Returned × CborCursor :=
  (match r.1 with | .error e => .error e | .ok _ => .value, r.2)

def returnedView (r : Except DecodeError View × CborCursor) : Returned × CborCursor :=
  (match r.1 with | .error e => .error e | .ok v => .view v, r.2)

def call (c : CborCursor) : Call → Returned × CborCursor
  | .peekType => returned (c.peekType, c)
  | .readKey => returned c.readKey
  | .readUint => returned c.readUint
  | .readInt => returned c.readInt
  | .readBool => returned c.readBool
  | .readNull => returned c.readNull
  | .readF32 => returned c.readF32
  | .readTstr => returnedView c.readTstr
  | .readBstr => returnedView c.readBstr
  | .readMapHeader => returned c.readMapHeader
  | .readArrayHeader => returned c.readArrayHeader
  | .skipValue => match c.skipValue with
    | none => (.lost, c)
    | some r => returned r

end CborCursor

end SlopSync
