import SlopSync.Estop
import SlopSync.Serial

/-! # The in-process link

`transport/inprocess_binding.hpp`: one direction of a link inside a process, with faults drawn from a random source.  The
source is shared with the other direction, which may draw between two steps of this one. -/

namespace SlopSync.InProcess

/-- `XorShift32` of `core/rng.hpp`. -/
def xorShift32 (s : UInt32) : UInt32 × UInt32 :=
  let x := s ^^^ (s <<< 13)
  let x := x ^^^ (x >>> 17)
  let x := x ^^^ (x <<< 5)
  (x, x)

structure FaultProfile where
  mtu : UInt16 := 250
  lossPct : UInt8 := 0
  dupPct : UInt8 := 0
  reorderPct : UInt8 := 0
  latencyUs : UInt32 := 0
  jitterUs : UInt32 := 0
  deriving DecidableEq, Repr

/-- `FrameBuffer::from`: a frame that is too long yields an empty one. -/
def frameBufferFrom (frame : Bytes) : Bytes := if frame.length ≤ kFrameBufferCapacity then frame else []

def looksLikeEstop (frame : Bytes) : Bool := frame.length == kEstopFrameBytes && estopMagic frame

/-! ## The queue -/

structure QueuedFrame where
  frame : Bytes
  deliverAtUs : UInt32
  deriving DecidableEq, Repr

namespace FrameQueue

def kCapacity : Nat := 16

/-- `none` when it is full. -/
def pushBack (e : QueuedFrame) (q : List QueuedFrame) : Option (List QueuedFrame) :=
  if kCapacity ≤ q.length then none else some (q ++ [e])

def pushFront (e : QueuedFrame) (q : List QueuedFrame) : Option (List QueuedFrame) :=
  if kCapacity ≤ q.length then none else some (e :: q)

/-- The frame just queued changes places with the one before it. -/
def swapLastTwo (q : List QueuedFrame) : List QueuedFrame :=
  match q.reverse with
  | a :: b :: rest => (b :: a :: rest).reverse
  | _ => q

/-- The head, once its time has come. -/
def popFront (nowUs : UInt32) : List QueuedFrame → Option Bytes × List QueuedFrame
  | [] => (none, [])
  | e :: q => if timeReached nowUs e.deliverAtUs then (some e.frame, q) else (none, e :: q)

end FrameQueue

/-! ## One direction -/

structure Direction (ρ : Type) where
  rng : ρ
  queue : List QueuedFrame := []

/-- What is drawn for a frame. -/
structure Rolls where
  lost : Bool
  jitter : UInt32
  reorder : Bool
  dup : Bool

namespace Direction

variable {ρ : Type} (nextU32 : ρ → UInt32 × ρ) (p : FaultProfile)

/-- The rolls of one write; jitter is drawn only where there is some. -/
def rolls (rng : ρ) : Rolls × ρ :=
  let (lossRoll, rng) := nextU32 rng
  let (jitter, rng) :=
    if 0 < p.jitterUs then
      let (roll, rng) := nextU32 rng
      (roll % (2 * p.jitterUs + 1) - p.jitterUs, rng)
    else (0, rng)
  let (reorderRoll, rng) := nextU32 rng
  let (dupRoll, rng) := nextU32 rng
  ({ lost := lossRoll % 100 < p.lossPct.toUInt32
     jitter
     reorder := reorderRoll % 100 < p.reorderPct.toUInt32
     dup := dupRoll % 100 < p.dupPct.toUInt32 }, rng)

/-- An ESTOP goes to the front. -/
def push (isEstop : Bool) (e : QueuedFrame) (q : List QueuedFrame) : Option (List QueuedFrame) :=
  if isEstop then FrameQueue.pushFront e q else FrameQueue.pushBack e q

/-- Queue a frame and apply the faults; `none` when the ring is full.  A duplicate that does not fit is dropped. -/
def enqueue (r : Rolls) (isEstop : Bool) (e : QueuedFrame) (q : List QueuedFrame) : Option (List QueuedFrame) :=
  (push isEstop e q).map fun q =>
    let q := if !isEstop && r.reorder then FrameQueue.swapLastTwo q else q
    if r.dup then (push isEstop e q).getD q else q

/-- Whether the frame was admitted, which says nothing of its delivery. -/
def write (frame : Bytes) (nowUs : UInt32) (d : Direction ρ) : Bool × Direction ρ :=
  if p.mtu.toNat < frame.length then (false, d)
  else
    let (r, rng) := rolls nextU32 p d.rng
    let d := { d with rng }
    if r.lost then (true, d)
    else
      let e : QueuedFrame := { frame := frameBufferFrom frame, deliverAtUs := nowUs + p.latencyUs + r.jitter }
      match enqueue r (looksLikeEstop frame) e d.queue with
      | none => (false, d)
      | some queue => (true, { d with queue })

def read (nowUs : UInt32) (d : Direction ρ) : Option Bytes × Direction ρ :=
  let (frame, queue) := FrameQueue.popFront nowUs d.queue
  (frame, { d with queue })

end Direction

/-! ## Runs -/

/-- What happens to a direction; `elsewhere`: the other one has drawn. -/
inductive LinkOp (ρ : Type)
  | write (frame : Bytes) (nowUs : UInt32)
  | read (nowUs : UInt32)
  | elsewhere (rng : ρ)

/-- A direction, the frames admitted and the frames read. -/
structure LinkRun (ρ : Type) where
  direction : Direction ρ
  admitted : List Bytes := []
  reads : List Bytes := []

namespace LinkRun

variable {ρ : Type} (nextU32 : ρ → UInt32 × ρ) (p : FaultProfile)

def step (s : LinkRun ρ) : LinkOp ρ → LinkRun ρ
  | .write frame nowUs =>
    let (ok, direction) := s.direction.write nextU32 p frame nowUs
    { s with direction, admitted := if ok then s.admitted ++ [frame] else s.admitted }
  | .read nowUs =>
    let (frame, direction) := s.direction.read nowUs
    { s with direction, reads := s.reads ++ frame.toList }
  | .elsewhere rng => { s with direction := { s.direction with rng } }

def run (rng : ρ) (ops : List (LinkOp ρ)) : LinkRun ρ := ops.foldl (step nextU32 p) { direction := { rng } }

end LinkRun

end SlopSync.InProcess
