import Mathlib.Data.Finset.Insert
import SlopSync.CborReader
import SlopSync.Frame
import SlopSync.Serial

/-! # Fragmentation

`wire/fragmentation.hpp` with the header of `wire/frame_header.hpp`: a control frame that is too large for its binding
is cut into fragments, and the receiver puts them together in one of two slots.  A slot keeps a history of the fragments
taken since it was opened. -/

namespace SlopSync

/-! ## Headers -/

structure FrameHeader where
  type : UInt8
  flags : UInt8 := 0
  channel : UInt16 := 0
  seq : UInt16 := 0
  len : UInt16 := 0
  deriving DecidableEq, Repr

def kHeaderBytes : Nat := 8

def FRAG_START : UInt8 := 1
def FRAG_MORE : UInt8 := 2

namespace FrameHeader

def fragStart (h : FrameHeader) : Bool := h.flags &&& FRAG_START != 0
def fragMore (h : FrameHeader) : Bool := h.flags &&& FRAG_MORE != 0

end FrameHeader

def encodeFrameHeader (h : FrameHeader) : Bytes := [h.type, h.flags] ++ le16 h.channel ++ le16 h.seq ++ le16 h.len

def decodeFrameHeader (bs : Bytes) : Option FrameHeader :=
  if bs.length < kHeaderBytes then none
  else
    some {
      type := bs.getD 0 0
      flags := bs.getD 1 0
      channel := getU16 (bs.drop 2)
      seq := getU16 (bs.drop 4)
      len := getU16 (bs.drop 6) }

theorem length_encodeFrameHeader (h : FrameHeader) : (encodeFrameHeader h).length = kHeaderBytes := rfl

theorem decodeFrameHeader_encode (h : FrameHeader) (rest : Bytes) :
    decodeFrameHeader (encodeFrameHeader h ++ rest) = some h := by
  have hlong : ¬(encodeFrameHeader h ++ rest).length < kHeaderBytes := by
    rw [List.length_append, length_encodeFrameHeader]
    omega
  rw [decodeFrameHeader, if_neg hlong,
    show (encodeFrameHeader h ++ rest).drop 2 = le16 h.channel ++ (le16 h.seq ++ (le16 h.len ++ rest)) from rfl,
    show (encodeFrameHeader h ++ rest).drop 4 = le16 h.seq ++ (le16 h.len ++ rest) from rfl,
    show (encodeFrameHeader h ++ rest).drop 6 = le16 h.len ++ rest from rfl, getU16_le16, getU16_le16, getU16_le16]
  rfl

/-! ## Cutting -/

def kFragIndexBytes : Nat := 2

/-- Twelve bytes that begin with the magic of an ESTOP. -/
def looksLikeEstop (bs : Bytes) : Bool := bs.length == 12 && bs.take 4 == [0xE5, 0xE5, 0xE5, 0xE5]

/-- Fragment `i` of `n`: START on the first, MORE on all but the last. -/
def fragment (header : FrameHeader) (payload : Bytes) (budget n i : Nat) : Bytes :=
  let slice := (payload.drop (i * budget)).take budget
  encodeFrameHeader { header with
    flags := (if i = 0 then FRAG_START else 0) ||| (if i + 1 < n then FRAG_MORE else 0)
    len := UInt16.ofNat (kFragIndexBytes + slice.length) } ++ le16 (UInt16.ofNat i) ++ slice

/-- What is emitted for a frame; a frame that fits goes out as it is. -/
def fragmentFrame (wholeFrame : Bytes) (maxFrameBytes : UInt16) : Option (List Bytes) :=
  if kFrameBufferCapacity < maxFrameBytes.toNat then none
  else if wholeFrame.length ≤ maxFrameBytes.toNat then some [wholeFrame]
  else if looksLikeEstop wholeFrame then none
  else match decodeFrameHeader wholeFrame with
    | none => none
    | some header =>
      if maxFrameBytes.toNat ≤ kHeaderBytes + kFragIndexBytes then none
      else
        let payload := wholeFrame.drop kHeaderBytes
        let budget := maxFrameBytes.toNat - kHeaderBytes - kFragIndexBytes
        let numFragments := (payload.length + budget - 1) / budget
        some ((List.range numFragments).map (fragment header payload budget numFragments))

/-! ## Putting together -/

def kMaxFragmentsPerMessage : Nat := 32
def kMaxSlotPayload : Nat := kFrameBufferCapacity - kHeaderBytes
def kFragReassemblyTimeoutMs : UInt32 := 5000

/-- What a fragment says: its flags, its index and its share of the payload. -/
structure Fragment where
  start : Bool
  more : Bool
  index : Nat
  slice : Bytes
  deriving DecidableEq, Repr

/-- An active slot; `receivedMask` holds the indices whose bit is set. -/
structure FragSlot where
  type : UInt8
  channel : UInt16 := 0
  seq : UInt16
  startMs : UInt32
  unitLen : UInt16 := 0                  -- 0 while it is not known
  totalFragments : UInt16 := 0           -- likewise
  lastFragLen : UInt16 := 0
  receivedMask : Finset Nat := ∅
  receivedCount : Nat := 0
  pendingLast : Option (Nat × Bytes) := none
  data : Bytes := List.replicate kMaxSlotPayload 0
  log : List Fragment := []              -- the history, oldest first
  deriving DecidableEq

namespace FragSlot

/-- Copy `bytes` to the place of a fragment, once; nothing when they do not fit. -/
def placeFragment (s : FragSlot) (index : Nat) (bytes : Bytes) : Option FragSlot :=
  if index ∈ s.receivedMask then some s
  else
    let offset := index * s.unitLen.toNat
    if kMaxSlotPayload < offset + bytes.length then none
    else
      some { s with
        data := s.data.take offset ++ bytes ++ s.data.drop (offset + bytes.length)
        receivedMask := insert index s.receivedMask
        receivedCount := s.receivedCount + 1 }

/-- The last fragment is placed as soon as the unit is known. -/
def placePending (s : FragSlot) : Option FragSlot :=
  match s.pendingLast with
  | none => some s
  | some (index, bytes) =>
    if s.unitLen = 0 then some s
    else (s.placeFragment index bytes).map fun s => { s with pendingLast := none }

/-- The length of a full fragment is the unit, from whichever comes first. -/
def learnUnit (s : FragSlot) (slice : Bytes) : FragSlot :=
  if s.unitLen = 0 then { s with unitLen := UInt16.ofNat slice.length } else s

/-- Take one fragment; nothing on an overflow. -/
def take (s : FragSlot) (f : Fragment) : Option FragSlot :=
  let s := { s with log := s.log ++ [f] }
  if f.start && !f.more then
    { s with totalFragments := 1, lastFragLen := UInt16.ofNat f.slice.length }.placeFragment 0 f.slice
  else if f.more then
    ((s.learnUnit f.slice).placeFragment f.index f.slice).bind placePending
  else
    let s := { s with totalFragments := UInt16.ofNat (f.index + 1), lastFragLen := UInt16.ofNat f.slice.length }
    if s.unitLen ≠ 0 then s.placeFragment f.index f.slice
    else if kMaxSlotPayload < f.slice.length then none
    else some { s with pendingLast := some (f.index, f.slice) }

def totalLen (s : FragSlot) : Nat := (s.totalFragments.toNat - 1) * s.unitLen.toNat + s.lastFragLen.toNat

/-- As many fragments have been placed as the last one announced. -/
def isComplete (s : FragSlot) : Bool := s.totalFragments != 0 && s.receivedCount == s.totalFragments.toNat

/-- The frame of a complete slot, unless it is too large. -/
def assemble (s : FragSlot) : Except DecodeError Bytes :=
  if kFrameBufferCapacity - kHeaderBytes < s.totalLen then .error .capacityExceeded
  else
    .ok (encodeFrameHeader { type := s.type, channel := s.channel, seq := s.seq, len := UInt16.ofNat s.totalLen } ++
      s.data.take s.totalLen)

end FragSlot

structure FragStats where
  reassembliesCompleted : UInt32 := 0
  timeouts : UInt32 := 0
  evictions : UInt32 := 0
  deriving DecidableEq, Repr

structure Reassembler where
  slots : Fin 2 → Option FragSlot := fun _ => none
  stats : FragStats := {}

namespace Reassembler

/-- The slot at work on `(type, seq)`. -/
def findSlot (r : Reassembler) (type : UInt8) (seq : UInt16) : Option (Fin 2) :=
  (List.finRange 2).find? fun i => (r.slots i).any fun s => s.type == type && s.seq == seq

def setSlot (r : Reassembler) (i : Fin 2) (s : Option FragSlot) : Reassembler :=
  { r with slots := Function.update r.slots i s }

def expired (s : FragSlot) (nowMs : UInt32) : Bool := timeReached nowMs (s.startMs + kFragReassemblyTimeoutMs)

/-- Free the slot of `(type, seq)` when its time is up. -/
def expireOne (r : Reassembler) (type : UInt8) (seq : UInt16) (nowMs : UInt32) : Reassembler :=
  match r.findSlot type seq with
  | none => r
  | some i =>
    if (r.slots i).any fun s => expired s nowMs then
      { r.setSlot i none with stats := { r.stats with timeouts := r.stats.timeouts + 1 } }
    else r

def age (r : Reassembler) (i : Fin 2) (nowMs : UInt32) : Int :=
  timeDelta nowMs ((r.slots i).elim 0 FragSlot.startMs)

/-- A free slot, or the oldest one. -/
def allocSlot (r : Reassembler) (type : UInt8) (seq : UInt16) (nowMs : UInt32) : Fin 2 × Reassembler :=
  let fresh : FragSlot := { type, seq, startMs := nowMs }
  match (List.finRange 2).find? fun i => (r.slots i).isNone with
  | some i => (i, r.setSlot i (some fresh))
  | none =>
    let oldest : Fin 2 := if r.age 0 nowMs < r.age 1 nowMs then 1 else 0
    (oldest, { r.setSlot oldest (some fresh) with stats := { r.stats with evictions := r.stats.evictions + 1 } })

/-- The slot for a fragment, opened if need be. -/
def openSlot (r : Reassembler) (type : UInt8) (seq : UInt16) (nowMs : UInt32) : Fin 2 × Reassembler :=
  let r := r.expireOne type seq nowMs
  match r.findSlot type seq with
  | some i => (i, r)
  | none => r.allocSlot type seq nowMs

/-- The fragment that a header and a payload make. -/
def readFragment (header : FrameHeader) (fragPayload : Bytes) : Fragment :=
  { start := header.fragStart, more := header.fragMore, index := (getU16 fragPayload).toNat
    slice := fragPayload.drop kFragIndexBytes }

/-- Take a fragment into its slot; `none` while the frame is not complete. -/
def accept (r : Reassembler) (header : FrameHeader) (fragPayload : Bytes) (nowMs : UInt32) :
    Except DecodeError (Option Bytes) × Reassembler :=
  if fragPayload.length < kFragIndexBytes then (.ok none, r)
  else if kMaxFragmentsPerMessage ≤ (getU16 fragPayload).toNat then (.error .capacityExceeded, r)
  else
    let (i, r) := r.openSlot header.type header.seq nowMs
    match r.slots i with
    | none => (.ok none, r)
    | some s =>
      match { s with channel := header.channel }.take (readFragment header fragPayload) with
      | none => (.error .capacityExceeded, r.setSlot i none)
      | some s =>
        if !s.isComplete then (.ok none, r.setSlot i (some s))
        else match s.assemble with
          | .error e => (.error e, r.setSlot i none)
          | .ok frame =>
            (.ok (some frame), { r.setSlot i none with
              stats := { r.stats with reassembliesCompleted := r.stats.reassembliesCompleted + 1 } })

/-- Free every slot whose time is up. -/
def expireStale (r : Reassembler) (nowMs : UInt32) : Reassembler :=
  (List.finRange 2).foldl (fun r i => (r.slots i).elim r fun s => r.expireOne s.type s.seq nowMs) r

end Reassembler

end SlopSync
