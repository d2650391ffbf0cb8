import SlopSync.CborReader
import SlopSync.Frame

/-! # The ESTOP frame on a raw stream

`decodeEstop` and `scanForEstop` of `wire/estop_frame.hpp`: the frame is found by its magic, at any offset. -/

namespace SlopSync

def kEstopFrameBytes : Nat := 12

def kEstopCrcOffset : Nat := 8

def kEstopMagicByte : UInt8 := 0xE5

/-- Whether four magic bytes stand in front. -/
def estopMagic (bs : Bytes) : Bool := bs.take 4 == List.replicate 4 kEstopMagicByte

def decodeEstop (bs : Bytes) : Except DecodeError EstopFrame :=
  if bs.length < kEstopFrameBytes then .error .truncated
  else if !estopMagic bs then .error .malformed
  else if crc32 (bs.take kEstopCrcOffset) ≠ getU32 (bs.drop kEstopCrcOffset) then .error .badCrc
  else .ok { cause := bs.getD 4 0, origin := bs.getD 5 0, seq := getU16 (bs.drop 6) }

structure EstopScanResult where
  found : Bool := false
  offset : Nat := 0
  frame : EstopFrame := ⟨0, 0, 0⟩
  deriving DecidableEq, Repr

/-- The loop of the scan, with what is left of the stream from the offset `i` on. -/
def scanForEstopFrom (i : Nat) : Bytes → EstopScanResult
  | [] => {}
  | b :: rest =>
    if (b :: rest).length < 4 then {}
    else if !estopMagic (b :: rest) then scanForEstopFrom (i + 1) rest
    else if (b :: rest).length < kEstopFrameBytes then {}   -- further right there is less
    else match decodeEstop ((b :: rest).take kEstopFrameBytes) with
      | .ok frame => { found := true, offset := i, frame }
      | .error _ => scanForEstopFrom (i + 1) rest

def scanForEstop (stream : Bytes) : EstopScanResult := scanForEstopFrom 0 stream

end SlopSync
