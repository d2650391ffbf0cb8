import SlopSync.Cbor

/-! # SHA-256

`wire/sha256.hpp`: the incremental hash, whose state is the eight words, the bits hashed so far and the bytes of the
block begun.  `Sha256.hash` of a whole message is what an etag is cut from. -/

namespace SlopSync

structure Sha256 where
  state : List UInt32 := [0x6a09e667, 0xbb67ae85, 0x3c6ef372, 0xa54ff53a, 0x510e527f, 0x9b05688c, 0x1f83d9ab, 0x5be0cd19]
  bitlen : UInt64 := 0
  buf : Bytes := []   -- the first `_bufLen` bytes of the block
  deriving DecidableEq, Repr

namespace Sha256

def kBlockBytes : Nat := 64

def rotr (x n : UInt32) : UInt32 := (x >>> n) ||| (x <<< (32 - n))

/-- The round constants. -/
def kK : List UInt32 := [
  0x428a2f98, 0x71374491, 0xb5c0fbcf, 0xe9b5dba5, 0x3956c25b, 0x59f111f1, 0x923f82a4, 0xab1c5ed5,
  0xd807aa98, 0x12835b01, 0x243185be, 0x550c7dc3, 0x72be5d74, 0x80deb1fe, 0x9bdc06a7, 0xc19bf174,
  0xe49b69c1, 0xefbe4786, 0x0fc19dc6, 0x240ca1cc, 0x2de92c6f, 0x4a7484aa, 0x5cb0a9dc, 0x76f988da,
  0x983e5152, 0xa831c66d, 0xb00327c8, 0xbf597fc7, 0xc6e00bf3, 0xd5a79147, 0x06ca6351, 0x14292967,
  0x27b70a85, 0x2e1b2138, 0x4d2c6dfc, 0x53380d13, 0x650a7354, 0x766a0abb, 0x81c2c92e, 0x92722c85,
  0xa2bfe8a1, 0xa81a664b, 0xc24b8b70, 0xc76c51a3, 0xd192e819, 0xd6990624, 0xf40e3585, 0x106aa070,
  0x19a4c116, 0x1e376c08, 0x2748774c, 0x34b0bcb5, 0x391c0cb3, 0x4ed8aa4a, 0x5b9cca4f, 0x682e6ff3,
  0x748f82ee, 0x78a5636f, 0x84c87814, 0x8cc70208, 0x90befffa, 0xa4506ceb, 0xbef9a3f7, 0xc67178f2]

/-- The big-endian words of a block. -/
def words : Bytes → List UInt32
  | a :: b :: c :: d :: rest =>
    ((a.toUInt32 <<< 24) ||| (b.toUInt32 <<< 16) ||| (c.toUInt32 <<< 8) ||| d.toUInt32) :: words rest
  | _ => []

/-- One more word of the message schedule. -/
def scheduleNext (m : List UInt32) (i : Nat) : List UInt32 :=
  let w (k : Nat) : UInt32 := m.getD (i - k) 0
  let s0 := rotr (w 15) 7 ^^^ rotr (w 15) 18 ^^^ (w 15 >>> 3)
  let s1 := rotr (w 2) 17 ^^^ rotr (w 2) 19 ^^^ (w 2 >>> 10)
  m ++ [w 16 + s0 + w 7 + s1]

def schedule (block : Bytes) : List UInt32 := (List.range' 16 48).foldl scheduleNext (words block)

/-- One round on the eight working variables. -/
def round (v : List UInt32) (km : UInt32 × UInt32) : List UInt32 :=
  match v with
  | [a, b, c, d, e, f, g, h] =>
    let ep1 := rotr e 6 ^^^ rotr e 11 ^^^ rotr e 25
    let ch := (e &&& f) ^^^ (~~~e &&& g)
    let t1 := h + ep1 + ch + km.1 + km.2
    let ep0 := rotr a 2 ^^^ rotr a 13 ^^^ rotr a 22
    let maj := (a &&& b) ^^^ (a &&& c) ^^^ (b &&& c)
    let t2 := ep0 + maj
    [t1 + t2, a, b, c, d + t1, e, f, g]
  | v => v

/-- One 64-byte block. -/
def transform (state : List UInt32) (block : Bytes) : List UInt32 :=
  List.zipWith (· + ·) state ((kK.zip (schedule block)).foldl round state)

/-- Hash the full blocks; what is left begins the next one. -/
def updateBlocks (s : Sha256) (data : Bytes) : Nat → Sha256
  | 0 => { s with buf := data }
  | n + 1 =>
    if data.length < kBlockBytes then { s with buf := data }
    else updateBlocks { s with state := transform s.state (data.take kBlockBytes), bitlen := s.bitlen + 512 }
      (data.drop kBlockBytes) n

/-- Feed any number of bytes; a block begun is topped up first. -/
def update (s : Sha256) (data : Bytes) : Sha256 :=
  if s.buf.isEmpty then updateBlocks s data (data.length / kBlockBytes)
  else
    let take := min data.length (kBlockBytes - s.buf.length)
    let s := { s with buf := s.buf ++ data.take take }
    let rest := data.drop take
    if s.buf.length = kBlockBytes then
      updateBlocks { s with state := transform s.state s.buf, bitlen := s.bitlen + 512, buf := [] } rest
        (rest.length / kBlockBytes)
    else s

def bigEndian32 (v : UInt32) : Bytes := [(v >>> 24).toUInt8, (v >>> 16).toUInt8, (v >>> 8).toUInt8, v.toUInt8]

/-- The bit length, at the end of the last block. -/
def bigEndian64 (v : UInt64) : Bytes := bigEndian32 (v >>> 32).toUInt32 ++ bigEndian32 v.toUInt32

/-- Pad and give the digest. -/
def final (s : Sha256) : Bytes :=
  let bitlen := s.bitlen + 8 * UInt64.ofNat s.buf.length
  let state :=
    if s.buf.length < 56 then
      transform s.state (s.buf ++ [0x80] ++ List.replicate (55 - s.buf.length) 0 ++ bigEndian64 bitlen)
    else
      transform (transform s.state (s.buf ++ [0x80] ++ List.replicate (63 - s.buf.length) 0))
        (List.replicate 56 0 ++ bigEndian64 bitlen)
  state.flatMap bigEndian32

def hash (data : Bytes) : Bytes := (update {} data).final

/-! ## The length of a digest -/

theorem length_round {v : List UInt32} (km : UInt32 × UInt32) (h : v.length = 8) : (round v km).length = 8 := by
  unfold round
  split
  · rfl
  · exact h

theorem length_transform {state : List UInt32} (block : Bytes) (h : state.length = 8) :
    (transform state block).length = 8 := by
  have hfold : ∀ (l : List (UInt32 × UInt32)) (v : List UInt32), v.length = 8 → (l.foldl round v).length = 8 := by
    intro l
    induction l with
    | nil => exact fun _ hv => hv
    | cons km l ih => exact fun v hv => ih _ (length_round km hv)
  rw [transform, List.length_zipWith, h, hfold _ _ h, Nat.min_self]

theorem length_updateBlocks (n : Nat) : ∀ (s : Sha256) (data : Bytes), s.state.length = 8 →
    (updateBlocks s data n).state.length = 8 := by
  induction n with
  | zero => exact fun _ _ h => h
  | succ n ih =>
    intro s data h
    unfold updateBlocks
    split
    · exact h
    · exact ih _ _ (length_transform _ h)

theorem length_update {s : Sha256} (data : Bytes) (h : s.state.length = 8) : (s.update data).state.length = 8 := by
  unfold update
  split
  · exact length_updateBlocks _ _ _ h
  · dsimp only
    split
    · exact length_updateBlocks _ _ _ (length_transform _ h)
    · exact h

theorem length_final {s : Sha256} (h : s.state.length = 8) : s.final.length = 32 := by
  have hbytes : ∀ st : List UInt32, (st.flatMap bigEndian32).length = 4 * st.length := by
    intro st
    induction st with
    | nil => rfl
    | cons v st ih =>
      have hword : (bigEndian32 v).length = 4 := rfl
      rw [List.flatMap_cons, List.length_append, ih, hword, List.length_cons]
      omega
  unfold final
  dsimp only
  rw [hbytes]
  split
  · rw [length_transform _ h]
  · rw [length_transform _ (length_transform _ h)]

/-- A digest has 32 bytes, whatever was hashed. -/
theorem length_hash (data : Bytes) : (hash data).length = 32 := length_final (length_update data rfl)

end Sha256

end SlopSync
