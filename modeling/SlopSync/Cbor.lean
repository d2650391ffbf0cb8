import Mathlib.Tactic.Linarith

/-! # The bounded CBOR writer

`wire/cbor/cbor_writer.hpp`.  The writer appends to a buffer of fixed capacity and records the first
failure for good: a byte that does not fit, a map key out of ascending order, a fifth open container.
An encoder that failed reports no bytes at all (`CborWriter.result`).

* `Fits` — the writer has not failed and has used at most so many bytes.
* `fits_put`, `fits_uintVal`, … — what one item costs.
-/

namespace SlopSync

abbrev Bytes := List UInt8

/-- One open container: the slots left in it and, for a map, the last key written. -/
structure CborFrame where
  isMap : Bool
  remaining : Nat
  lastKey : Option Nat := none
  deriving DecidableEq, Repr

structure CborWriter where
  cap : Nat
  out : Bytes := []
  failed : Bool := false
  stack : List CborFrame := []   -- innermost container first
  deriving DecidableEq, Repr

namespace CborWriter

def kMaxDepth : Nat := 4

/-- Append raw bytes, or fail if they do not fit. -/
def put (w : CborWriter) (bs : Bytes) : CborWriter :=
  if w.failed then w
  else if w.cap < w.out.length + bs.length then { w with failed := true }
  else { w with out := w.out ++ bs }

/-- Big-endian bytes of `v`, `n` of them. -/
def bigEndian : Nat → Nat → Bytes
  | 0, _ => []
  | n + 1, v => UInt8.ofNat (v >>> (8 * n)) :: bigEndian n v

/-- The shortest-form head of major type `major` with argument `v`. -/
def head (major v : Nat) : Bytes :=
  let ib0 := major <<< 5
  if v ≤ 23 then [UInt8.ofNat (ib0 ||| v)]
  else if v ≤ 0xFF then UInt8.ofNat (ib0 ||| 24) :: bigEndian 1 v
  else if v ≤ 0xFFFF then UInt8.ofNat (ib0 ||| 25) :: bigEndian 2 v
  else if v ≤ 0xFFFFFFFF then UInt8.ofNat (ib0 ||| 26) :: bigEndian 4 v
  else UInt8.ofNat (ib0 ||| 27) :: bigEndian 8 v

def writeHead (w : CborWriter) (major v : Nat) : CborWriter :=
  w.put (head major v)

/-- One slot of the innermost container was filled.  A container whose count is satisfied closes, which
fills a slot of its parent. -/
def consume : List CborFrame → List CborFrame
  | [] => []
  | f :: fs => if f.remaining ≤ 1 then consume fs else { f with remaining := f.remaining - 1 } :: fs

def consumeOne (w : CborWriter) : CborWriter :=
  { w with stack := consume w.stack }

/-- Open a container.  An empty one is closed at once. -/
def openContainer (w : CborWriter) (isMap : Bool) (remaining : Nat) : CborWriter :=
  if w.failed then w
  else if kMaxDepth < w.stack.length + 1 then { w with failed := true }
  else if remaining = 0 then { w with stack := consume w.stack }
  else { w with stack := { isMap, remaining } :: w.stack }

def mapHeader (w : CborWriter) (nPairs : Nat) : CborWriter :=
  (w.openContainer true (nPairs * 2)).writeHead 5 nPairs

def arrayHeader (w : CborWriter) (n : Nat) : CborWriter :=
  (w.openContainer false n).writeHead 4 n

/-- Write a map key; keys of one map must be strictly ascending. -/
def key (w : CborWriter) (kv : Nat) : CborWriter :=
  if w.failed then w
  else match w.stack with
    | [] => { w with failed := true }
    | f :: fs =>
      if !f.isMap then { w with failed := true }
      else if f.lastKey.any (kv ≤ ·) then { w with failed := true }
      else (({ w with stack := { f with lastKey := some kv } :: fs }).writeHead 0 kv).consumeOne

def uintVal (w : CborWriter) (v : Nat) : CborWriter :=
  (w.writeHead 0 v).consumeOne

def intVal (w : CborWriter) (v : Int) : CborWriter :=
  (if 0 ≤ v then w.writeHead 0 v.toNat else w.writeHead 1 (-1 - v).toNat).consumeOne

def boolVal (w : CborWriter) (v : Bool) : CborWriter :=
  (w.put [UInt8.ofNat ((7 <<< 5) ||| (if v then 21 else 20))]).consumeOne

/-- A binary32 value, by its bit pattern. -/
def f32Val (w : CborWriter) (bits : UInt32) : CborWriter :=
  let w' := w.put (0xFA :: bigEndian 4 bits.toNat)
  if w'.failed then w' else w'.consumeOne

def strVal (w : CborWriter) (major : Nat) (s : Bytes) : CborWriter :=
  let w' := (w.writeHead major s.length).put s
  if w'.failed then w' else w'.consumeOne

def tstrVal (w : CborWriter) (s : Bytes) : CborWriter := w.strVal 3 s
def bstrVal (w : CborWriter) (s : Bytes) : CborWriter := w.strVal 2 s

/-- The bytes written, or nothing if any write failed. -/
def result (w : CborWriter) : Option Bytes :=
  if w.failed then none else some w.out

/-! ## What an encoding costs -/

/-- The writer has not failed and has used at most `n` bytes. -/
structure Fits (w : CborWriter) (n : Nat) : Prop where
  ok : w.failed = false
  used : w.out.length ≤ n

theorem bigEndian_length (n v : Nat) : (bigEndian n v).length = n := by
  induction n with
  | zero => rfl
  | succ n ih => simp [bigEndian, ih]

theorem head_length_small (major : Nat) {v : Nat} (h : v ≤ 23) : (head major v).length = 1 := by
  simp [head, h]

theorem head_length_u8 (major : Nat) {v : Nat} (h : v ≤ 0xFF) : (head major v).length ≤ 2 := by
  simp only [head]
  split_ifs <;> simp [bigEndian_length]

theorem head_length_u16 (major : Nat) {v : Nat} (h : v ≤ 0xFFFF) : (head major v).length ≤ 3 := by
  simp only [head]
  split_ifs <;> simp [bigEndian_length]

theorem head_length_u32 (major : Nat) {v : Nat} (h : v ≤ 0xFFFFFFFF) : (head major v).length ≤ 5 := by
  simp only [head]
  split_ifs <;> simp [bigEndian_length]

section Fits

variable {w : CborWriter} {n m : Nat}

theorem fits_put {bs : Bytes} (h : w.Fits n) (hb : bs.length ≤ m) (hc : n + m ≤ w.cap) :
    (w.put bs).Fits (n + m) ∧ (w.put bs).stack = w.stack ∧ (w.put bs).cap = w.cap := by
  have hu := h.used
  have : ¬ w.cap < w.out.length + bs.length := by omega
  have heq : w.put bs = { w with out := w.out ++ bs } := by
    rw [put, if_neg (by simp [h.ok]), if_neg this]
  rw [heq]
  refine ⟨⟨h.ok, ?_⟩, rfl, rfl⟩
  simp only [List.length_append]
  omega

theorem fits_consumeOne (h : w.Fits n) : w.consumeOne.Fits n := ⟨h.ok, h.used⟩

@[simp] theorem consumeOne_cap : w.consumeOne.cap = w.cap := rfl
@[simp] theorem consumeOne_stack : w.consumeOne.stack = consume w.stack := rfl

/-- An unsigned value of at most `m` head bytes. -/
theorem fits_uintVal {v : Nat} (h : w.Fits n) (hv : (head 0 v).length ≤ m) (hc : n + m ≤ w.cap) :
    (w.uintVal v).Fits (n + m) ∧ (w.uintVal v).stack = consume w.stack ∧ (w.uintVal v).cap = w.cap := by
  obtain ⟨h1, h2, h3⟩ := fits_put h hv hc
  refine ⟨fits_consumeOne h1, ?_, h3⟩
  simp only [uintVal, writeHead, consumeOne_stack, h2]

/-- A key above the last one of the innermost map. -/
theorem fits_key {x : Nat} {f : CborFrame} {g : List CborFrame} (h : w.Fits n) (hs : w.stack = f :: g)
    (hm : f.isMap = true) (hk : f.lastKey.any (x ≤ ·) = false) (hv : (head 0 x).length ≤ m)
    (hc : n + m ≤ w.cap) :
    (w.key x).Fits (n + m) ∧ (w.key x).stack = consume ({ f with lastKey := some x } :: g) ∧
      (w.key x).cap = w.cap := by
  let w₁ : CborWriter := { w with stack := { f with lastKey := some x } :: g }
  have hw₁ : w₁.Fits n := ⟨h.ok, h.used⟩
  have heq : w.key x = (w₁.writeHead 0 x).consumeOne := by
    simp [key, h.ok, hs, hm, hk, w₁]
  obtain ⟨h1, h2, h3⟩ := fits_put (w := w₁) hw₁ hv hc
  rw [heq]
  refine ⟨fits_consumeOne h1, ?_, h3⟩
  simp only [writeHead, consumeOne_stack, h2, w₁]

theorem fits_mapHeader {k : Nat} (h : w.Fits n) (hd : w.stack.length < kMaxDepth) (hk : k ≤ 23)
    (hpos : 0 < k) (hc : n + 1 ≤ w.cap) :
    (w.mapHeader k).Fits (n + 1) ∧ (w.mapHeader k).stack = ⟨true, k * 2, none⟩ :: w.stack ∧
      (w.mapHeader k).cap = w.cap := by
  let w₁ : CborWriter := { w with stack := ⟨true, k * 2, none⟩ :: w.stack }
  have hw₁ : w₁.Fits n := ⟨h.ok, h.used⟩
  have hd' : ¬ kMaxDepth < w.stack.length + 1 := by omega
  have heq : w.openContainer true (k * 2) = w₁ := by
    have h0 : ¬ k * 2 = 0 := by omega
    simp only [openContainer, h.ok, Bool.false_eq_true, if_false, hd', h0, w₁]
  obtain ⟨h1, h2, h3⟩ := fits_put (w := w₁) hw₁ (Nat.le_of_eq (head_length_small 5 hk)) hc
  rw [mapHeader, heq]
  exact ⟨h1, h2, h3⟩

theorem fits_bstrVal {s : Bytes} (h : w.Fits n) (hs : s.length ≤ 0xFF) (hc : n + (2 + s.length) ≤ w.cap) :
    (w.bstrVal s).Fits (n + (2 + s.length)) ∧ (w.bstrVal s).stack = consume w.stack ∧
      (w.bstrVal s).cap = w.cap := by
  obtain ⟨h1, h2, h3⟩ := fits_put h (head_length_u8 2 hs) (by omega)
  obtain ⟨h4, h5, h6⟩ := fits_put h1 (le_refl s.length) (by rw [h3]; omega)
  have heq : w.bstrVal s = ((w.put (head 2 s.length)).put s).consumeOne := by
    simp [bstrVal, strVal, writeHead, h4.ok]
  rw [heq]
  refine ⟨?_, ?_, by simp [h6, h3]⟩
  · have := fits_consumeOne h4
    rwa [Nat.add_assoc] at this
  · simp only [consumeOne_stack, h5, h2]

theorem Fits.result (h : w.Fits n) : ∃ bs, w.result = some bs ∧ bs.length ≤ n :=
  ⟨w.out, by simp [CborWriter.result, h.ok], h.used⟩

end Fits

end CborWriter

end SlopSync
