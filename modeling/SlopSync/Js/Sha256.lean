import SlopSync.Client.Reassembler
import SlopSync.Js.Int32
import SlopSync.Sha256

/-! # SHA-256 in JavaScript

`clients/js/sha256.js`: one padded buffer, and the 32-bit operators of the language. -/

namespace SlopSync.Js

def K256 : List Int := [
  0x428a2f98, 0x71374491, 0xb5c0fbcf, 0xe9b5dba5, 0x3956c25b, 0x59f111f1, 0x923f82a4, 0xab1c5ed5,
  0xd807aa98, 0x12835b01, 0x243185be, 0x550c7dc3, 0x72be5d74, 0x80deb1fe, 0x9bdc06a7, 0xc19bf174,
  0xe49b69c1, 0xefbe4786, 0x0fc19dc6, 0x240ca1cc, 0x2de92c6f, 0x4a7484aa, 0x5cb0a9dc, 0x76f988da,
  0x983e5152, 0xa831c66d, 0xb00327c8, 0xbf597fc7, 0xc6e00bf3, 0xd5a79147, 0x06ca6351, 0x14292967,
  0x27b70a85, 0x2e1b2138, 0x4d2c6dfc, 0x53380d13, 0x650a7354, 0x766a0abb, 0x81c2c92e, 0x92722c85,
  0xa2bfe8a1, 0xa81a664b, 0xc24b8b70, 0xc76c51a3, 0xd192e819, 0xd6990624, 0xf40e3585, 0x106aa070,
  0x19a4c116, 0x1e376c08, 0x2748774c, 0x34b0bcb5, 0x391c0cb3, 0x4ed8aa4a, 0x5b9cca4f, 0x682e6ff3,
  0x748f82ee, 0x78a5636f, 0x84c87814, 0x8cc70208, 0x90befffa, 0xa4506ceb, 0xbef9a3f7, 0xc67178f2]

/-- The array `h`, or the variables of the rounds. -/
structure Vars where
  a : Int
  b : Int
  c : Int
  d : Int
  e : Int
  f : Int
  g : Int
  hh : Int
  deriving DecidableEq, Repr

def initialHash : Vars where
  a := 0x6a09e667
  b := 0xbb67ae85
  c := 0x3c6ef372
  d := 0xa54ff53a
  e := 0x510e527f
  f := 0x9b05688c
  g := 0x1f83d9ab
  hh := 0x5be0cd19

/-- `dv.getUint32(at, false)`. -/
def getUint32 (buf : Bytes) (at' : Nat) : Int :=
  (((buf.getD at' 0).toNat * 256 + (buf.getD (at' + 1) 0).toNat) * 256 + (buf.getD (at' + 2) 0).toNat) * 256 +
    (buf.getD (at' + 3) 0).toNat

/-- `dv.setUint32(at, x, false)`, within the buffer. -/
def setUint32 (buf : Bytes) (at' : Nat) (x : Int) : Bytes := splice buf at' (Sha256.bigEndian32 (uint32 x))

/-- The message, 0x80, zeros and the length in bits. -/
def padded (bytes : Bytes) : Bytes :=
  let bitLen : Int := bytes.length * 8
  let padded := List.replicate (shl32 (sar32 (bytes.length + 9 + 63 : Nat) 6) 6).toNat 0
  let padded := splice padded 0 bytes
  let padded := padded.set bytes.length 0x80
  let padded := setUint32 padded (padded.length - 8) (bitLen / 0x100000000)
  setUint32 padded (padded.length - 4) (toUint32 bitLen)

/-- The word `i` of the schedule, behind those before it. -/
def nextWord (w : List Int) (i : Nat) : List Int :=
  let x := w.getD (i - 15) 0
  let y := w.getD (i - 2) 0
  let s0 := xor32 (xor32 (or32 (shr32 x 7) (shl32 x 25)) (or32 (shr32 x 18) (shl32 x 14))) (shr32 x 3)
  let s1 := xor32 (xor32 (or32 (shr32 y 17) (shl32 y 15)) (or32 (shr32 y 19) (shl32 y 13))) (shr32 y 10)
  w ++ [toUint32 (w.getD (i - 16) 0 + s0 + w.getD (i - 7) 0 + s1)]

def schedule (padded : Bytes) (off : Nat) : List Int :=
  (List.range' 16 48).foldl nextWord ((List.range 16).map fun i => getUint32 padded (off + i * 4))

def round (w : List Int) (v : Vars) (i : Nat) : Vars :=
  let S1 := xor32 (xor32 (or32 (shr32 v.e 6) (shl32 v.e 26)) (or32 (shr32 v.e 11) (shl32 v.e 21)))
    (or32 (shr32 v.e 25) (shl32 v.e 7))
  let ch := xor32 (and32 v.e v.f) (and32 (not32 v.e) v.g)
  let t1 := toUint32 (v.hh + S1 + ch + K256.getD i 0 + w.getD i 0)
  let S0 := xor32 (xor32 (or32 (shr32 v.a 2) (shl32 v.a 30)) (or32 (shr32 v.a 13) (shl32 v.a 19)))
    (or32 (shr32 v.a 22) (shl32 v.a 10))
  let maj := xor32 (xor32 (and32 v.a v.b) (and32 v.a v.c)) (and32 v.b v.c)
  let t2 := toUint32 (S0 + maj)
  { hh := v.g, g := v.f, f := v.e, e := toUint32 (v.d + t1), d := v.c, c := v.b, b := v.a, a := toUint32 (t1 + t2) }

def addVars (h v : Vars) : Vars where
  a := toUint32 (h.a + v.a)
  b := toUint32 (h.b + v.b)
  c := toUint32 (h.c + v.c)
  d := toUint32 (h.d + v.d)
  e := toUint32 (h.e + v.e)
  f := toUint32 (h.f + v.f)
  g := toUint32 (h.g + v.g)
  hh := toUint32 (h.hh + v.hh)

/-- The block at an offset. -/
def hashBlock (padded : Bytes) (h : Vars) (off : Nat) : Vars :=
  addVars h ((List.range 64).foldl (round (schedule padded off)) h)

def sha256 (bytes : Bytes) : Bytes :=
  let padded := padded bytes
  let h := (List.range' 0 ((padded.length + 63) / 64) 64).foldl (hashBlock padded) initialHash
  [h.a, h.b, h.c, h.d, h.e, h.f, h.g, h.hh].flatMap fun x => Sha256.bigEndian32 (uint32 x)

def catalogEtag (catalogBytes : Bytes) (n : Nat) : Bytes := (sha256 catalogBytes).take n

end SlopSync.Js
