import SlopSync.Messages
import SlopSync.Serial

/-! # The idempotency ring and the ingress limiter

`channel/intent_registry.hpp`.  `IntentRing` remembers the ECHO bytes of the last 32 accepted intents;
`Holds r i bs k` says that the ring answers `bs` for `i` and that `k` further stores have been made since.

* `holds_store_new` — a store makes a new id answerable.
* `holds_store` — a store of another id ages it by one, for up to 31 further stores.
-/

namespace SlopSync

structure RingSlot where
  intentId : UInt16
  bytes : Bytes
  deriving DecidableEq, Repr

def kRingSlotCapacity : Nat := 96

theorem IntentRing.depth_pos : 0 < Limits.idempotencyRingDepth := by decide

theorem IntentRing.head_nil :
    ([] : List RingSlot).length < Limits.idempotencyRingDepth → 0 = ([] : List RingSlot).length := fun _ => rfl

structure IntentRing where
  slots : List RingSlot := []
  head : Nat := 0
  fits : slots.length ≤ Limits.idempotencyRingDepth := by first | exact Nat.zero_le _ | decide
  headLt : head < Limits.idempotencyRingDepth := by first | exact IntentRing.depth_pos | decide
  -- the ring fills from the front: until it is full the next slot is the first unused one
  headEq : slots.length < Limits.idempotencyRingDepth → head = slots.length := by
    first | exact IntentRing.head_nil | decide
  deriving DecidableEq

namespace IntentRing

/-- Write `slot` at the head: a fresh slot while the ring fills, the oldest one after that. -/
def writeHead (r : IntentRing) (slot : RingSlot) : List RingSlot :=
  if r.slots.length < Limits.idempotencyRingDepth then r.slots ++ [slot] else r.slots.set r.head slot

theorem length_writeHead (r : IntentRing) (slot : RingSlot) :
    (r.writeHead slot).length = min (r.slots.length + 1) Limits.idempotencyRingDepth := by
  have := r.fits
  simp only [writeHead]
  split <;> simp <;> omega

/-- Refused, with the ring unchanged, iff the bytes are over the slot size. -/
def store (r : IntentRing) (intentId : UInt16) (bytes : Bytes) : Option IntentRing :=
  if kRingSlotCapacity < bytes.length then none
  else some
    { slots := r.writeHead ⟨intentId, bytes⟩
      head := (r.head + 1) % Limits.idempotencyRingDepth
      fits := by rw [length_writeHead]; exact Nat.min_le_right _ _
      headLt := Nat.mod_lt _ (by decide)
      headEq := by
        intro h
        rw [length_writeHead] at h ⊢
        have h1 : r.slots.length + 1 < Limits.idempotencyRingDepth := by omega
        rw [r.headEq (by omega), Nat.mod_eq_of_lt h1]
        omega }

def lookup (r : IntentRing) (intentId : UInt16) : Option Bytes :=
  (r.slots.find? (fun s => s.intentId == intentId)).map RingSlot.bytes

/-! ## How long an answer stays -/

/-- The first slot of `i` is at `p`, holds `bytes`, and `k` stores were made after it. -/
structure HoldsAt (r : IntentRing) (i : UInt16) (bytes : Bytes) (k p : Nat) : Prop where
  slot : r.slots[p]? = some ⟨i, bytes⟩
  first : ∀ q s, q < p → r.slots[q]? = some s → s.intentId ≠ i
  age : (p + 1 + k) % Limits.idempotencyRingDepth = r.head
  recent : k < Limits.idempotencyRingDepth

def Holds (r : IntentRing) (i : UInt16) (bytes : Bytes) (k : Nat) : Prop :=
  ∃ p, r.HoldsAt i bytes k p

theorem find?_first {l : List RingSlot} {i : UInt16} {s : RingSlot} :
    ∀ {p : Nat}, l[p]? = some s → s.intentId = i → (∀ q t, q < p → l[q]? = some t → t.intentId ≠ i) →
      l.find? (fun s => s.intentId == i) = some s := by
  induction l with
  | nil =>
    intro p h
    simp at h
  | cons a l ih =>
    intro p h hi hfirst
    cases p with
    | zero =>
      simp only [List.getElem?_cons_zero, Option.some.injEq] at h
      simp [h, hi]
    | succ p =>
      have ha : a.intentId ≠ i := hfirst 0 a (Nat.succ_pos p) rfl
      simp only [List.getElem?_cons_succ] at h
      have hne : (a.intentId == i) = false := by simpa using ha
      rw [List.find?_cons, hne]
      exact ih h hi (fun q t hq ht => hfirst (q + 1) t (Nat.succ_lt_succ hq) ht)

theorem Holds.lookup {r : IntentRing} {i : UInt16} {bytes : Bytes} {k : Nat} (h : r.Holds i bytes k) :
    r.lookup i = some bytes := by
  obtain ⟨p, hp⟩ := h
  rw [IntentRing.lookup, find?_first hp.slot rfl hp.first]
  rfl

theorem getElem?_writeHead_ne {r : IntentRing} {slot : RingSlot} {q : Nat} (h : q ≠ r.head) :
    (r.writeHead slot)[q]? = r.slots[q]? := by
  simp only [writeHead]
  split
  · rename_i hlt
    have hq : q ≠ r.slots.length := fun e => h (e.trans (r.headEq hlt).symm)
    rcases Nat.lt_or_gt_of_ne hq with hl | hg
    · rw [List.getElem?_append_left hl]
    · rw [List.getElem?_eq_none (by simp; omega), List.getElem?_eq_none (by omega)]
  · rw [List.getElem?_set_ne (Ne.symm h)]

theorem getElem?_writeHead_head (r : IntentRing) (slot : RingSlot) :
    (r.writeHead slot)[r.head]? = some slot := by
  have := r.fits
  have := r.headLt
  simp only [writeHead]
  split
  · rename_i hlt
    rw [r.headEq hlt]
    simp
  · rw [List.getElem?_set_self (by omega)]

theorem store_some {r r' : IntentRing} {j : UInt16} {bs : Bytes} (h : r.store j bs = some r') :
    r'.slots = r.writeHead ⟨j, bs⟩ ∧ r'.head = (r.head + 1) % Limits.idempotencyRingDepth := by
  simp only [store] at h
  split at h
  · cases h
  · cases h
    exact ⟨rfl, rfl⟩

/-- An id that was not answerable is answerable after its store. -/
theorem holds_store_new {r r' : IntentRing} {i : UInt16} {bytes : Bytes} (hnew : r.lookup i = none)
    (h : r.store i bytes = some r') : r'.Holds i bytes 0 := by
  obtain ⟨hs, hh⟩ := store_some h
  refine ⟨r.head, ?_, ?_, ?_, by decide⟩
  · rw [hs, getElem?_writeHead_head]
  · intro q s hq hget
    rw [hs, getElem?_writeHead_ne (Nat.ne_of_lt hq)] at hget
    have hnone : r.slots.find? (fun s => s.intentId == i) = none := by
      simpa [IntentRing.lookup] using hnew
    have := List.find?_eq_none.mp hnone s (List.mem_of_getElem? hget)
    simpa using this
  · rw [hh, Nat.add_zero]

/-- **Every further store ages an answer by one**, until 31 have been made. -/
theorem holds_store {r r' : IntentRing} {i j : UInt16} {bytes bs : Bytes} {k : Nat} (hold : r.Holds i bytes k)
    (hk : k + 1 < Limits.idempotencyRingDepth) (hij : j ≠ i) (h : r.store j bs = some r') :
    r'.Holds i bytes (k + 1) := by
  obtain ⟨hs, hh⟩ := store_some h
  obtain ⟨p, hp⟩ := hold
  have hplt : p < r.slots.length := (List.getElem?_eq_some_iff.mp hp.slot).1
  have hfits := r.fits
  have hage := hp.age
  -- the head cannot be back at `p` before 32 stores
  have hne : p ≠ r.head := by
    intro e
    simp only [Limits.idempotencyRingDepth] at *
    omega
  refine ⟨p, ?_, ?_, ?_, hk⟩
  · rw [hs, getElem?_writeHead_ne hne]
    exact hp.slot
  · intro q s hq hget
    by_cases hqh : q = r.head
    · subst hqh
      rw [hs, getElem?_writeHead_head] at hget
      cases hget
      exact hij
    · rw [hs, getElem?_writeHead_ne hqh] at hget
      exact hp.first q s hq hget
  · rw [hh, ← hage]
    simp only [Limits.idempotencyRingDepth]
    omega

end IntentRing

/-! ## The token bucket -/

structure IngressRateLimiter where
  ratePerSec : UInt32 := UInt32.ofNat Limits.intentIngressDefaultPerS
  capacity : F32 := .ofNat Limits.intentIngressDefaultPerS
  tokens : F32 := .ofNat Limits.intentIngressDefaultPerS
  lastMs : UInt32 := 0
  deriving DecidableEq, Repr

namespace IngressRateLimiter

/-- A full bucket.  A capacity of zero means one second's worth. -/
def make (ratePerSec nowMs : UInt32) (capacityTokens : F32) : IngressRateLimiter :=
  let capacity := if F32.lt 0 capacityTokens then capacityTokens else .ofNat ratePerSec.toNat
  { ratePerSec, capacity, tokens := capacity, lastMs := nowMs }

def refill (l : IngressRateLimiter) (nowMs : UInt32) : IngressRateLimiter :=
  let deltaMs := timeDelta nowMs l.lastMs
  if deltaMs ≤ 0 then l
  else
    let tokens := l.tokens.add (.fin ((deltaMs : ℚ) / 1000 * (l.ratePerSec.toNat : ℚ)))
    { l with lastMs := nowMs, tokens := if l.capacity.lt tokens then l.capacity else tokens }

/-- All or nothing: take `n` tokens, or refuse and take none. -/
def allowN (l : IngressRateLimiter) (nowMs : UInt32) (n : Nat) : Bool × IngressRateLimiter :=
  let l := l.refill nowMs
  if F32.le (.ofNat n) l.tokens then (true, { l with tokens := l.tokens.sub (.ofNat n) }) else (false, l)

def allow (l : IngressRateLimiter) (nowMs : UInt32) : Bool × IngressRateLimiter := l.allowN nowMs 1

end IngressRateLimiter

end SlopSync
