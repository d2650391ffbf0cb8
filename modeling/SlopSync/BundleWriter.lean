import SlopSync.Catalog
import SlopSync.Client.Reassembler

/-! # The STREAM bundle writer

`BundleWriter` of `wire/stream_bundle.hpp`: the offsets stand before the samples, so each new one moves the samples behind
it.  `BundleView::parse` is the other side.  Sizes are those of memory: no sum of them wraps. -/

namespace SlopSync

def kStreamBundleHeaderBytes : Nat := 6

def kStreamBundleTOffBytes : Nat := 2

structure BundleWriter where
  out : Bytes
  tBase : UInt32
  sampleSize : Nat
  valid : Bool := false
  tOffs : List UInt16 := []   -- the first `_n` of the array
  deriving DecidableEq, Repr

namespace BundleWriter

/-- The constructor: the base and the reserved byte. -/
def init (out : Bytes) (tBase : UInt32) (sampleSize : Nat) : BundleWriter :=
  if kStreamBundleHeaderBytes ≤ out.length then
    { out := (splice out 0 (le32 tBase)).set 5 0, tBase, sampleSize, valid := true }
  else { out, tBase, sampleSize }

/-- `_n`. -/
def sampleCount (w : BundleWriter) : Nat := w.tOffs.length

/-- The first offset is 0, a later one is above the one before. -/
def inOrder (w : BundleWriter) (tOff : UInt16) : Bool :=
  match w.tOffs.getLast? with
  | none => tOff == 0
  | some last => decide (last < tOff)

/-- The samples make room for the next offset; then the offset and the sample go in. -/
def append (w : BundleWriter) (tOff : UInt16) (sample : Bytes) : Bytes :=
  let n := w.sampleCount
  let oldHeaderSize := kStreamBundleHeaderBytes + kStreamBundleTOffBytes * n
  let newHeaderSize := oldHeaderSize + kStreamBundleTOffBytes
  let out := if 0 < n then splice w.out newHeaderSize ((w.out.drop oldHeaderSize).take (n * w.sampleSize)) else w.out
  let out := splice out oldHeaderSize (le16 tOff)
  splice out (newHeaderSize + n * w.sampleSize) sample

/-- The size with one more sample. -/
def newTotal (w : BundleWriter) : Nat :=
  kStreamBundleHeaderBytes + kStreamBundleTOffBytes * w.sampleCount + kStreamBundleTOffBytes +
    (w.sampleCount + 1) * w.sampleSize

def addSample (w : BundleWriter) (tOff : UInt16) (sample : Bytes) : Bool × BundleWriter :=
  if !w.valid then (false, w)
  else if sample.length ≠ w.sampleSize then (false, w)
  else if Limits.bundleMaxSamples ≤ w.sampleCount then (false, w)
  else if !w.inOrder tOff then (false, w)
  else if Limits.bundleMaxSpanMs * 1000 < tOff.toNat then (false, w)
  else if w.out.length < w.newTotal then (false, w)
  else
    (true, { w with out := (w.append tOff sample).set 4 (UInt8.ofNat (w.sampleCount + 1)), tOffs := w.tOffs ++ [tOff] })

/-- The size so far, 0 when the header never fitted. -/
def finalize (w : BundleWriter) : Nat :=
  if w.valid then kStreamBundleHeaderBytes + kStreamBundleTOffBytes * w.sampleCount + w.sampleCount * w.sampleSize else 0

/-- A sequence of calls: the writer and what it accepted. -/
def addAll (w : BundleWriter) : List (UInt16 × Bytes) → BundleWriter × List (UInt16 × Bytes)
  | [] => (w, [])
  | (tOff, sample) :: calls =>
    let (ok, w) := w.addSample tOff sample
    let (w, accepted) := w.addAll calls
    (w, if ok then (tOff, sample) :: accepted else accepted)

end BundleWriter

end SlopSync
