import SlopSync.CborReader
import SlopSync.Frame
import SlopSync.Serial

/-! # Acknowledgement masks

`wire/raw/ackmask.hpp`: six bytes that say which of 32 consecutive sequence numbers arrived, and the tracker of a receiver,
whose window slides so that the newest number is always in it. -/

namespace SlopSync

structure AckMask where
  baseSeq : UInt16 := 0
  mask : UInt32 := 0
  deriving DecidableEq, Repr

def kAckMaskWindow : Nat := 32

/-- The numbers whose bits are set, in order. -/
def unpackAckMask (base : UInt16) (mask : UInt32) : List UInt16 :=
  ((List.range kAckMaskWindow).filter fun i => mask &&& (1 <<< UInt32.ofNat i) != 0).map fun i => base + UInt16.ofNat i

structure AckTracker where
  base : UInt16 := 0
  mask : UInt32 := 0
  deriving DecidableEq, Repr

namespace AckTracker

/-- A number before the window is dropped; one behind it makes the window slide. -/
def record (t : AckTracker) (seq : UInt16) : AckTracker :=
  if seq != t.base && !seqIsNewer seq t.base then t
  else
    let offset : Int := (seq - t.base).toBitVec.toInt
    if (kAckMaskWindow : Int) ≤ offset then
      let shift := UInt16.ofInt (offset - kAckMaskWindow + 1)
      { base := t.base + shift
        mask := (if kAckMaskWindow ≤ shift.toNat then 0 else t.mask >>> shift.toUInt32) |||
          1 <<< UInt32.ofNat (kAckMaskWindow - 1) }
    else { t with mask := t.mask ||| 1 <<< UInt32.ofInt offset }

def snapshot (t : AckTracker) : AckMask := { baseSeq := t.base, mask := t.mask }

def reset (_ : AckTracker) (base : UInt16) : AckTracker := { base }

end AckTracker

end SlopSync
