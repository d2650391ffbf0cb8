import SlopSync.CborReader
import SlopSync.Messages

/-! # Reading an INTENT

`decodeIntent` of `wire/messages/intent.hpp`.  The wire carries integers of up to 64 bits; the message keeps 16 bits of
a channel id, an intent id and a precondition, and the decoder drops the others without a word.  `IntentFields` is what
was on the wire, `IntentFields.msg` what the decoder makes of it. -/

namespace SlopSync

open CborReader

/-- One value, by the type it has on the wire.  Containers and tags are none. -/
def decodeIntentValue (r : CborReader) : Except DecodeError (IntentValue × CborReader) := do
  match ← r.peekType with
  | .uint =>
    let (v, r) ← r.readUint
    return (.u64 v, r)
  | .negInt =>
    let (v, r) ← r.readInt
    return (.i64 v, r)
  | .textString =>
    let (v, r) ← r.readTstr
    return (.tstr v, r)
  | .byteString =>
    let (v, r) ← r.readBstr
    return (.bstr v, r)
  | .simple =>
    match r.readBool with
    | .ok (b, r) => return (.bool b, r)
    | .error _ =>
      let (v, r) ← r.readF32
      return (.f32 v, r)
  | .array | .map | .tag => .error .malformed

/-- The next `n` fields of a value map. -/
def decodeValueFields : Nat → CborReader → Except DecodeError (IntentValueMap × CborReader)
  | 0, r => .ok ([], r)
  | n + 1, r => do
    let (k, r) ← r.readKey
    if 0xFF < k then .error .malformed
    else
      let (value, r) ← decodeIntentValue r
      let (fields, r) ← decodeValueFields n r
      return (⟨UInt8.ofNat k, value⟩ :: fields, r)

def decodeIntentValueMap (r : CborReader) : Except DecodeError (IntentValueMap × CborReader) := do
  let (n, r) ← r.readMapHeader
  if kIntentMaxValueFields < n then .error .capacityExceeded else decodeValueFields n r

/-- The fields of an INTENT that were read so far, as they are on the wire. -/
structure IntentFields where
  channelId : Option UInt64 := none
  intentId : Option UInt64 := none
  value : Option IntentValueMap := none
  precondition : Option UInt64 := none
  takeover : Option Bool := none
  deriving DecidableEq, Repr

namespace IntentFields

variable (f : IntentFields)

/-- The field under this key; unknown ones are skipped. -/
def readField (k : Nat) (r : CborReader) : Except DecodeError (IntentFields × CborReader) :=
  if k = CborKey.channelId then do
    let (v, r) ← r.readUint
    return ({ f with channelId := some v }, r)
  else if k = CborKey.intentId then do
    let (v, r) ← r.readUint
    return ({ f with intentId := some v }, r)
  else if k = CborKey.value then do
    let (v, r) ← decodeIntentValueMap r
    return ({ f with value := some v }, r)
  else if k = CborKey.precondition then do
    let (v, r) ← r.readUint
    return ({ f with precondition := some v }, r)
  else if k = CborKey.takeover then do
    let (v, r) ← r.readBool
    return ({ f with takeover := some v }, r)
  else do
    let r ← r.skipValue
    return (f, r)

/-- The next `n` fields. -/
def readFields : Nat → IntentFields → CborReader → Except DecodeError IntentFields
  | 0, f, _ => .ok f
  | n + 1, f, r => do
    let (k, r) ← r.readKey
    let (f, r) ← f.readField k r
    readFields n f r

/-- What an INTENT payload carries. -/
def ofPayload (payload : Bytes) : Except DecodeError IntentFields := do
  let (n, r) ← CborReader.readMapHeader { rest := payload }
  readFields n {} r

/-- The message: channel, id and value must be there, and integers are cut to 16 bits. -/
def msg : Except DecodeError IntentMsg :=
  match f.channelId, f.intentId, f.value with
  | some channelId, some intentId, some value =>
    .ok { channelId := channelId.toUInt16, intentId := intentId.toUInt16, value
          precondition := f.precondition.map UInt64.toUInt16, takeover := f.takeover.getD false }
  | _, _, _ => .error .malformed

end IntentFields

def decodeIntent (payload : Bytes) : Except DecodeError IntentMsg := do
  let f ← IntentFields.ofPayload payload
  f.msg

/-- channel 0x0100, intent 7, no values, precondition 0x10001. -/
example : decodeIntent [0xA4, 0x0F, 0x19, 0x01, 0x00, 0x12, 0x07, 0x14, 0xA0, 0x18, 0x1E, 0x1A, 0x00, 0x01, 0x00, 0x01] =
    .ok { channelId := 0x0100, intentId := 7, precondition := some 1 } := by decide +kernel

end SlopSync
