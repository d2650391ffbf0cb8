import Mathlib.Algebra.Order.Field.Rat

/-! # Binary32 values

Rates, bursts and token counts are `float` in the source.  A value is a NaN, an infinity or a rational;
comparisons are the IEEE ones (every comparison with a NaN is false) and finite arithmetic is exact. -/

namespace SlopSync

inductive F32
  | nan
  | negInf
  | posInf
  | fin (q : ℚ)
  deriving DecidableEq, Repr

namespace F32

instance : Zero F32 := ⟨fin 0⟩

def ofNat (n : Nat) : F32 := fin n

/-- IEEE `<`. -/
def lt : F32 → F32 → Bool
  | nan, _ | _, nan => false
  | negInf, negInf => false
  | negInf, _ => true
  | _, negInf => false
  | posInf, _ => false
  | fin _, posInf => true
  | fin a, fin b => decide (a < b)

/-- IEEE `<=`. -/
def le : F32 → F32 → Bool
  | nan, _ | _, nan => false
  | negInf, _ => true
  | _, posInf => true
  | posInf, _ => false
  | fin _, negInf => false
  | fin a, fin b => decide (a ≤ b)

/-- `std::min(a, b)`: the first argument unless the second is smaller. -/
def min (a b : F32) : F32 := if b.lt a then b else a

/-- The sign decides what an infinity times a finite factor is. -/
def mul : F32 → F32 → F32
  | fin a, fin b => fin (a * b)
  | posInf, fin b => if 0 < b then posInf else if b < 0 then negInf else nan
  | fin b, posInf => if 0 < b then posInf else if b < 0 then negInf else nan
  | negInf, fin b => if 0 < b then negInf else if b < 0 then posInf else nan
  | fin b, negInf => if 0 < b then negInf else if b < 0 then posInf else nan
  | posInf, posInf | negInf, negInf => posInf
  | posInf, negInf | negInf, posInf => negInf
  | _, _ => nan

def add : F32 → F32 → F32
  | fin a, fin b => fin (a + b)
  | posInf, negInf | negInf, posInf => nan
  | nan, _ | _, nan => nan
  | posInf, _ | _, posInf => posInf
  | negInf, _ | _, negInf => negInf

def neg : F32 → F32
  | nan => nan
  | negInf => posInf
  | posInf => negInf
  | fin q => fin (-q)

def sub (a b : F32) : F32 := add a (neg b)

/-- Truncation to an unsigned 32-bit integer; only used on finite, non-negative values. -/
def toUInt32 : F32 → UInt32
  | fin q => UInt32.ofNat q.floor.toNat
  | _ => 0

end F32

end SlopSync
