import SlopSync.Packed
import SlopSync.Profile.Tree

/-! # The JavaScript codec

`clients/js/cbor.js`.  `cbDecode` reads a `Uint8Array` by index.  An index past the end reads `undefined`, which counts as
0 in a shift or a bitwise or and makes a sum NaN, so a position may be NaN too (`none`); a decode that throws is `none`.

A buffer is shorter than 2 ^ 53 bytes, so a position above that is past its end and need not be rounded. -/

namespace SlopSync.Js

/-! ## Numbers and strings -/

/-- The number nearest to a natural: 53 significant bits, ties to even. -/
def toDouble (n : Nat) : Nat :=
  if n < 2 ^ 53 then n else F32.roundShift n (n.log2 - 52) * 2 ^ (n.log2 - 52)

theorem toDouble_of_lt {n : Nat} (h : n < 2 ^ 53) : toDouble n = n := if_pos h

/-- What `TextEncoder` makes of a string of scalar values. -/
def utf8 (cs : List Char) : Bytes := cs.flatMap String.utf8EncodeChar

/-- The character at the front, when the bytes there are one. -/
def frontChar (bs : Bytes) : Option Char := bs.toByteArray.utf8DecodeChar? 0

/-- How many continuation bytes a first byte asks for, and the range of the first of them. -/
def continuation (b : UInt8) : Nat × UInt8 × UInt8 :=
  if 0xC2 ≤ b ∧ b ≤ 0xDF then (1, 0x80, 0xBF)
  else if b = 0xE0 then (2, 0xA0, 0xBF)
  else if b = 0xED then (2, 0x80, 0x9F)
  else if 0xE1 ≤ b ∧ b ≤ 0xEF then (2, 0x80, 0xBF)
  else if b = 0xF0 then (3, 0x90, 0xBF)
  else if b = 0xF4 then (3, 0x80, 0x8F)
  else if 0xF1 ≤ b ∧ b ≤ 0xF3 then (3, 0x80, 0xBF)
  else (0, 0x80, 0xBF)

/-- The continuation bytes at the front, at most `n`, the first of them in a range of its own. -/
def continued : Nat → UInt8 → UInt8 → Bytes → Nat
  | n + 1, low, high, b :: bs => if low ≤ b ∧ b ≤ high then continued n 0x80 0xBF bs + 1 else 0
  | _, _, _, _ => 0

/-- How many bytes one replacement character stands for. -/
def badLength : Bytes → Nat
  | [] => 0
  | b :: bs => let (n, low, high) := continuation b; continued n low high bs + 1

/-- Characters as they come, and U+FFFD for what is none; `fuel` is at least the number of bytes. -/
def decodeChars : Nat → Bytes → List Char
  | 0, _ => []
  | fuel + 1, bs =>
    match frontChar bs with
    | some c => c :: decodeChars fuel (bs.drop c.utf8Size)
    | none => if bs = [] then [] else '\uFFFD' :: decodeChars fuel (bs.drop (badLength bs))

def byteOrderMark : Bytes := [0xEF, 0xBB, 0xBF]

/-- `new TextDecoder().decode(bs)`: not fatal, and a byte order mark is dropped. -/
def textDecode (bs : Bytes) : List Char :=
  if bs.take 3 = byteOrderMark then decodeChars bs.length (bs.drop 3) else decodeChars bs.length bs

/-! ## Values -/

/-- A decoded value.  A number is an integer, a binary32 by its bits, or NaN. -/
inductive Value
  | undefined
  | nan
  | int (k : Int)
  | f32 (bits : UInt32)
  | bool (b : Bool)
  | null
  | bytes (s : Bytes)
  | str (cs : List Char)
  | arr (xs : List Value)
  | map (ps : List (Value × Value))

/-- Keys of a `Map` are compared as primitives; two objects are never the same key. -/
def sameKey : Value → Value → Bool
  | .undefined, .undefined | .nan, .nan | .null, .null => true
  | .int k, .int l => k = l
  | .int k, .f32 b | .f32 b, .int k => F32.ofBits b = .fin k
  | .f32 a, .f32 b => F32.ofBits a = F32.ofBits b
  | .nan, .f32 b | .f32 b, .nan => F32.ofBits b = .nan
  | .bool a, .bool b => a = b
  | .str s, .str t => s = t
  | _, _ => false

/-- `Map.set`: a key that is there keeps its place. -/
def mapSet (k x : Value) : List (Value × Value) → List (Value × Value)
  | [] => [(k, x)]
  | (k', x') :: ps => if sameKey k' k then (k', x) :: ps else (k', x') :: mapSet k x ps

/-! ## Reading heads -/

/-- A `Uint8Array` over an `ArrayBuffer`: its bytes, and how many more the buffer has behind them. -/
structure View where
  bytes : Bytes
  behind : Bytes := []
  short : bytes.length < 2 ^ 53

/-- The argument of a head as the decoder computes it. -/
inductive Arg
  | undefined
  | nan
  | num (n : Nat)
  deriving DecidableEq, Repr

/-- What the first byte of an item says. -/
inductive HeadAt
  | past                        -- there is no byte: a zero
  | simple (x : Value)
  | arg (major : Nat) (a : Arg)

/-- The argument of a head whose first byte is at `p`, and the position behind it. -/
def readArg (bytes : Bytes) (p : Nat) (ai : Nat) : Option (Arg × Nat) :=
  let b := fun k => bytes[p + k]?.map UInt8.toNat
  if ai ≤ 23 then some (.num ai, p + 1)
  else if ai = 24 then some ((b 1).elim .undefined .num, p + 2)
  else if ai = 25 then some (.num ((b 1).getD 0 <<< 8 ||| (b 2).getD 0), p + 3)
  else if ai = 26 then
    match b 1, b 2, b 3, b 4 with
    | some b1, some b2, some b3, some b4 => some (.num (b1 * 0x1000000 + (b2 <<< 16) + (b3 <<< 8) + b4), p + 5)
    | _, _, _, _ => some (.nan, p + 5)
  else if ai = 27 then
    match b 1, b 2, b 3, b 4, b 5, b 6, b 7, b 8 with
    | some b1, some b2, some b3, some b4, some b5, some b6, some b7, some b8 =>
      let hi := ((b1 * 256 + b2) * 256 + b3) * 256 + b4
      let lo := ((b5 * 256 + b6) * 256 + b7) * 256 + b8
      some (.num (toDouble (hi * 0x100000000 + lo)), p + 9)
    | _, _, _, _, _, _, _, _ => some (.nan, p + 9)
  else none

/-- The head at `pos`, and the position behind it. -/
def readHead (v : View) (pos : Option Nat) : Option (HeadAt × Option Nat) :=
  match pos, pos.bind (v.bytes[·]?) with
  | some p, some ib =>
    let major := CborReader.major ib
    let ai := CborReader.additional ib
    if major = 7 then
      if ai = 20 then some (.simple (.bool false), some (p + 1))
      else if ai = 21 then some (.simple (.bool true), some (p + 1))
      else if ai = 22 then some (.simple .null, some (p + 1))
      else if ai = 26 then
        -- a `DataView` over the `ArrayBuffer`, which may be longer than the array
        if v.bytes.length + v.behind.length < p + 5 then none
        else
          let bits := CborReader.bigEndianValue (((v.bytes ++ v.behind).drop (p + 1)).take 4)
          some (.simple (.f32 (UInt32.ofNat bits)), some (p + 5))
      else none
    else if major = 6 then none
    else (readArg v.bytes p ai).map fun (a, q) => (.arg major a, some q)
  | pos, _ => some (.past, pos.map (· + 1))

/-! ## Decoding -/

def Arg.value : Arg → Value
  | .undefined => .undefined
  | .nan => .nan
  | .num n => .int n

/-- `-1 - val`. -/
def Arg.negValue : Arg → Value
  | .num n => .int (-toDouble (n + 1))
  | _ => .nan

/-- `p + val`. -/
def Arg.behind (pos : Option Nat) : Arg → Option Nat
  | .num n => pos.map (· + n)
  | _ => none

/-- `buf.slice(p, p + val)`: what there is of it, and nothing up to NaN. -/
def Arg.slice (bytes : Bytes) (pos : Option Nat) : Arg → Bytes
  | .num n => pos.elim [] fun p => (bytes.drop p).take n
  | _ => []

/-- How often `for (let i = 0; i < val; i++)` runs. -/
def Arg.count : Arg → Nat
  | .num n => n
  | _ => 0

/-- The elements of an array. -/
def items (f : Option Nat → Option (Value × Option Nat)) : Nat → Option Nat → Option (List Value × Option Nat)
  | 0, pos => some ([], pos)
  | n + 1, pos => do
    let (x, pos) ← f pos
    let (xs, pos) ← items f n pos
    return (x :: xs, pos)

/-- The pairs of a map, set one after the other. -/
def pairs (f : Option Nat → Option (Value × Option Nat)) :
    Nat → List (Value × Value) → Option Nat → Option (List (Value × Value) × Option Nat)
  | 0, m, pos => some (m, pos)
  | n + 1, m, pos => do
    let (k, pos) ← f pos
    let (x, pos) ← f pos
    pairs f n (mapSet k x m) pos

/-- One item at `pos`.  An item inside another starts at a later byte, and none is left when the fuel is used up. -/
def decodeFrom (v : View) : Nat → Option Nat → Option (Value × Option Nat)
  | 0, pos => some (.int 0, pos.map (· + 1))
  | fuel + 1, pos => do
    match ← readHead v pos with
    | (.past, pos) => return (.int 0, pos)
    | (.simple x, pos) => return (x, pos)
    | (.arg major a, pos) =>
      match major with
      | 0 => return (a.value, pos)
      | 1 => return (a.negValue, pos)
      | 2 => return (.bytes (a.slice v.bytes pos), a.behind pos)
      | 3 => return (.str (textDecode (a.slice v.bytes pos)), a.behind pos)
      | 4 => return (← items (decodeFrom v fuel) a.count pos).map .arr id
      | _ => return (← pairs (decodeFrom v fuel) a.count [] pos).map .map id

/-- `cbDecode(buf, 0)`; more fuel gives the same (`decodeFrom_fuel`). -/
def cbDecode (v : View) : Option (Value × Option Nat) := decodeFrom v v.bytes.length (some 0)

/-! ## Encoding -/

/-- `head(major, v)`. -/
def head (major v : Nat) : Bytes :=
  let ib0 := major <<< 5
  let b := UInt8.ofNat
  if v ≤ 23 then [b (ib0 ||| v)]
  else if v ≤ 0xFF then [b (ib0 ||| 24), b v]
  else if v ≤ 0xFFFF then [b (ib0 ||| 25), b ((v >>> 8) &&& 0xFF), b (v &&& 0xFF)]
  else if v ≤ 0xFFFFFFFF then
    [b (ib0 ||| 26), b ((v >>> 24) &&& 0xFF), b ((v >>> 16) &&& 0xFF), b ((v >>> 8) &&& 0xFF), b (v &&& 0xFF)]
  else
    let hi := v / 0x100000000
    let lo := v % 0x100000000
    [b (ib0 ||| 27), b ((hi >>> 24) &&& 0xFF), b ((hi >>> 16) &&& 0xFF), b ((hi >>> 8) &&& 0xFF), b (hi &&& 0xFF),
      b ((lo >>> 24) &&& 0xFF), b ((lo >>> 16) &&& 0xFF), b ((lo >>> 8) &&& 0xFF), b (lo &&& 0xFF)]

def cbUint (v : Nat) : Bytes := head 0 v

def cbInt (v : Int) : Bytes := if 0 ≤ v then head 0 v.toNat else head 1 (-1 - v).toNat

def cbBool (v : Bool) : Bytes := [if v then 0xF5 else 0xF4]

def cbNull : Bytes := [0xF6]

def cbF32 (bits : UInt32) : Bytes := 0xFA :: CborWriter.bigEndian 4 bits.toNat

def cbTstr (cs : List Char) : Bytes := head 3 (utf8 cs).length ++ utf8 cs

def cbBstr (s : Bytes) : Bytes := head 2 s.length ++ s

def cbArray (elems : List Bytes) : Bytes := head 4 elems.length ++ elems.flatten

/-- Each key is above the one before it. -/
def ascending : List Nat → Bool
  | k :: l :: ks => decide (k < l) && ascending (l :: ks)
  | _ => true

/-- Keys that do not ascend are refused. -/
def cbMap (ps : List (Nat × Bytes)) : Option Bytes :=
  if ascending (ps.map Prod.fst) then some (head 5 ps.length ++ ps.flatMap fun p => cbUint p.1 ++ p.2) else none

end SlopSync.Js
