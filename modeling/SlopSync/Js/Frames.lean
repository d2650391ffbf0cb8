import SlopSync.Frame
import SlopSync.Js.Int32

/-! # The ESTOP frame of the JavaScript client

`crc32` and `encodeEstopFrame` of `clients/js/frames.js`. -/

namespace SlopSync.Js

/-- One bit of a table entry. -/
def crc32Bit (c : Int) : Int := if and32 c 1 ≠ 0 then xor32 0xedb88320 (shr32 c 1) else shr32 c 1

def CRC32_TABLE : List Int := (List.range 256).map fun n : Nat => toUint32 (crc32Bit^[8] n)

def crc32 (bytes : Bytes) : Int :=
  let c := bytes.foldl (fun c b => xor32 (CRC32_TABLE.getD (and32 (xor32 c b.toNat) 0xff).toNat 0) (shr32 c 8)) 0xffffffff
  toUint32 (xor32 c 0xffffffff)

def encodeEstopFrame (cause origin seq : Int) : Bytes :=
  let out := [0xe5, 0xe5, 0xe5, 0xe5, uint8 (and32 cause 0xff), uint8 (and32 origin 0xff)] ++
    le16 (uint16 (and32 seq 0xffff))
  out ++ le32 (uint32 (crc32 out))

end SlopSync.Js
