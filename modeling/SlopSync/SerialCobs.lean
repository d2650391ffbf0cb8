import SlopSync.CborReader

/-! # COBS

`wire/serial_cobs.hpp`: byte stuffing without a delimiter.  A code byte stands before each run of bytes that are not zero
and says where the next one stands; the encoder leaves a slot for it and fills it in when the run ends. -/

namespace SlopSync

/-! ## Encoding -/

/-- The locals of `cobsEncode`. -/
structure CobsEncoder where
  dst : Bytes
  writeIndex : Nat := 1
  codeIndex : Nat := 0
  code : UInt8 := 1
  finalZero : Bool := true      -- a code byte is owed if the input ends now

/-- One byte of the input; `none` when the destination is full. -/
def CobsEncoder.put (e : CobsEncoder) (b : UInt8) : Option CobsEncoder :=
  if b = 0 then
    let dst := e.dst.set e.codeIndex e.code
    if dst.length ≤ e.writeIndex then none
    else some { dst, writeIndex := e.writeIndex + 1, codeIndex := e.writeIndex }
  else if e.dst.length ≤ e.writeIndex then none
  else
    let dst := e.dst.set e.writeIndex b
    let writeIndex := e.writeIndex + 1
    let code := e.code + 1
    if code = 0xFF then
      let dst := dst.set e.codeIndex code
      if dst.length ≤ writeIndex then none
      else some { dst, writeIndex := writeIndex + 1, codeIndex := writeIndex, finalZero := false }
    else some { e with dst, writeIndex, code }

def CobsEncoder.putAll (e : CobsEncoder) : Bytes → Option CobsEncoder
  | [] => some e
  | b :: src => (e.put b).bind fun e => e.putAll src

/-- The length of the output and the destination. -/
def CobsEncoder.finish (e : CobsEncoder) : Nat × Bytes :=
  if e.finalZero || e.code != 1 then (e.writeIndex, e.dst.set e.codeIndex e.code)
  -- the run after a maximal one got no byte: its slot is given back
  else (e.writeIndex - 1, e.dst)

/-- `none` when `dst` is too small. -/
def cobsEncode (src dst : Bytes) : Option (Nat × Bytes) :=
  if dst.isEmpty then none else ((CobsEncoder.mk dst 1 0 1 true).putAll src).map CobsEncoder.finish

/-! ## Decoding -/

/-- Copy the `n` bytes after a code byte: what is left of the input, the write index and the destination. -/
def cobsCopy : Nat → Bytes → Nat → Bytes → Except DecodeError (Bytes × Nat × Bytes)
  | 0, src, writeIndex, dst => .ok (src, writeIndex, dst)
  | _ + 1, [], _, _ => .error .truncated
  | n + 1, b :: src, writeIndex, dst =>
    if dst.length ≤ writeIndex then .error .capacityExceeded
    else cobsCopy n src (writeIndex + 1) (dst.set writeIndex b)

/-- The loop over the code bytes; each takes one byte at least. -/
def cobsRuns : Nat → Bytes → Nat → Bytes → Except DecodeError (Nat × Bytes)
  | 0, _, writeIndex, dst => .ok (writeIndex, dst)
  | _ + 1, [], writeIndex, dst => .ok (writeIndex, dst)
  | fuel + 1, code :: src, writeIndex, dst =>
    if code = 0 then .error .malformed
    else match cobsCopy (code.toNat - 1) src writeIndex dst with
      | .error e => .error e
      | .ok (rest, writeIndex, dst) =>
        if code ≠ 0xFF ∧ rest ≠ [] then
          if dst.length ≤ writeIndex then .error .capacityExceeded
          else cobsRuns fuel rest (writeIndex + 1) (dst.set writeIndex 0)
        else cobsRuns fuel rest writeIndex dst

/-- The number of bytes written and the destination. -/
def cobsDecode (src dst : Bytes) : Except DecodeError (Nat × Bytes) := cobsRuns src.length src 0 dst

end SlopSync
