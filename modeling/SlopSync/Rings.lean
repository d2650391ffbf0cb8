import SlopSync.Circular
import SlopSync.Messages

/-! # The rings of the channel layer

`EventQueue` of `channel/event_channel.hpp`, `EventReplayRing` of `channel/log_channel.hpp` and `IntentRing` of
`channel/intent_registry.hpp` as they lie in memory, for every depth and slot capacity.  A call is `none` when it is
undefined: an index is taken modulo a depth of zero. -/

namespace SlopSync.Rings

/-! ## Slots -/

/-- The bytes of a slot.  Those past `size` are left from earlier payloads. -/
structure Cell (capacity : Nat) where
  bytes : Bytes
  size : UInt16 := 0
  width : bytes.length = capacity

namespace Cell

variable {capacity : Nat}

theorem length_blank (capacity : Nat) : (List.replicate capacity (0 : UInt8)).length = capacity := List.length_replicate

def blank : Cell capacity where
  bytes := List.replicate capacity 0
  width := length_blank capacity

/-- Copy a payload to the front; the length is kept in 16 bits. -/
def copy (payload : Bytes) (h : payload.length ≤ capacity) (c : Cell capacity) : Cell capacity where
  bytes := payload ++ c.bytes.drop payload.length
  size := UInt16.ofNat payload.length
  width := by
    rw [List.length_append, List.length_drop, c.width]
    omega

def view (c : Cell capacity) : Bytes := c.bytes.take c.size.toNat

theorem view_copy (payload : Bytes) (h : payload.length ≤ capacity) (c : Cell capacity) :
    (c.copy payload h).view = payload.take (payload.length % 2 ^ 16) := by
  have hle : payload.length % 2 ^ 16 ≤ payload.length := Nat.mod_le _ _
  simp only [view, copy, UInt16.toNat_ofNat']
  rw [List.take_append_of_le_length hle]

/-- A payload is read back exactly when 16 bits hold its length. -/
theorem take_mod_iff (payload : Bytes) : payload.take (payload.length % 2 ^ 16) = payload ↔ payload.length < 2 ^ 16 := by
  rw [List.take_eq_self_iff]
  omega

end Cell

structure EventSlot (capacity : Nat) extends Cell capacity where
  channelId : UInt16 := 0

namespace EventSlot

variable {capacity : Nat}

def blank : EventSlot capacity := { Cell.blank with }

def write (channelId : UInt16) (payload : Bytes) (h : payload.length ≤ capacity) (s : EventSlot capacity) :
    EventSlot capacity :=
  { s.toCell.copy payload h with channelId }

def shown (s : EventSlot capacity) : UInt16 × Bytes := (s.channelId, s.view)

end EventSlot

/-! ## Rings that count what they drop -/

structure Dropping (σ : Type) (depth : Nat) where
  ring : Circular σ depth
  dropped : UInt32 := 0

namespace Dropping

variable {σ : Type} {depth : Nat}

/-- The push of `EventQueue` and of `EventReplayRing`.  A payload over the capacity is refused; a full ring drops its oldest
slot and counts it. -/
def push (capacity : Nat) (payload : Bytes) (write : payload.length ≤ capacity → σ → σ) (q : Dropping σ depth) :
    Option (Bool × Dropping σ depth) :=
  if h : capacity < payload.length then some (false, q)
  else if hpos : 0 < depth then
    some (true,
      { ring := q.ring.push (write (Nat.not_lt.mp h)) hpos
        dropped := if q.ring.count = depth then q.dropped + 1 else q.dropped })
  else none

end Dropping

abbrev EventQueue (depth slotCapacity : Nat) := Dropping (EventSlot slotCapacity) depth

namespace EventQueue

variable {depth slotCapacity : Nat}

def empty : EventQueue depth slotCapacity := { ring := .empty .blank }

def push (q : EventQueue depth slotCapacity) (channelId : UInt16) (payload : Bytes) :
    Option (Bool × EventQueue depth slotCapacity) :=
  Dropping.push slotCapacity payload (fun h => EventSlot.write channelId payload h) q

/-- The oldest event, which leaves the queue. -/
def pop (q : EventQueue depth slotCapacity) : Option (UInt16 × Bytes) × EventQueue depth slotCapacity :=
  if h : 0 < q.ring.count then (some (q.ring.nth ⟨0, h⟩).shown, { q with ring := q.ring.dropOldest h }) else (none, q)

def contents (q : EventQueue depth slotCapacity) : List (UInt16 × Bytes) := q.ring.items EventSlot.shown

end EventQueue

abbrev EventReplayRing (depth slotCapacity : Nat) := Dropping (Cell slotCapacity) depth

namespace EventReplayRing

variable {depth slotCapacity : Nat}

def empty : EventReplayRing depth slotCapacity := { ring := .empty .blank }

def push (r : EventReplayRing depth slotCapacity) (payload : Bytes) : Option (Bool × EventReplayRing depth slotCapacity) :=
  Dropping.push slotCapacity payload (fun h => Cell.copy payload h) r

/-- How many entries are visited, and what the visitor is called with, in order.  The index of the first one is taken
modulo the depth also when there is none. -/
def forEachNewest (r : EventReplayRing depth slotCapacity) (want : Nat) : Option (Nat × List Bytes) :=
  if 0 < depth then some (min want r.ring.count, r.ring.newest Cell.view want) else none

def contents (r : EventReplayRing depth slotCapacity) : List Bytes := r.ring.items Cell.view

end EventReplayRing

/-! ## The idempotency ring -/

structure IntentSlot (capacity : Nat) extends Cell capacity where
  used : Bool := false
  intentId : UInt16 := 0

namespace IntentSlot

variable {capacity : Nat}

def blank : IntentSlot capacity := { Cell.blank with }

def write (intentId : UInt16) (payload : Bytes) (h : payload.length ≤ capacity) (s : IntentSlot capacity) :
    IntentSlot capacity :=
  { s.toCell.copy payload h with used := true, intentId }

/-- Whether the slot is in use, and for what. -/
def tagged (s : IntentSlot capacity) : Bool × UInt16 × Bytes := (s.used, s.intentId, s.view)

end IntentSlot

/-- There is no tail: the ring fills from its first slot on, and is full for ever after. -/
structure IntentRing (depth slotCapacity : Nat) where
  slots : Vector (IntentSlot slotCapacity) depth := Vector.replicate depth .blank
  head : Nat := 0
  count : Nat := 0
  fits : count ≤ depth := by exact Nat.zero_le _
  wraps : head % depth = head := by exact Nat.zero_mod _
  starts : count < depth → head = count := by exact fun _ => rfl

namespace IntentRing

variable {depth slotCapacity : Nat}

def store (r : IntentRing depth slotCapacity) (intentId : UInt16) (payload : Bytes) :
    Option (Bool × IntentRing depth slotCapacity) :=
  if h : slotCapacity < payload.length then some (false, r)
  else if hpos : 0 < depth then
    have hhead : r.head < depth := r.wraps ▸ Nat.mod_lt _ hpos
    some (true,
      { slots := r.slots.set r.head (r.slots[r.head].write intentId payload (Nat.not_lt.mp h))
        head := (r.head + 1) % depth
        count := if r.count < depth then r.count + 1 else r.count
        fits := by
          have := r.fits
          split <;> omega
        wraps := Nat.mod_mod _ _
        starts := by
          intro hlt
          by_cases hc : r.count < depth
          · rw [if_pos hc] at hlt ⊢
            rw [r.starts hc, Nat.mod_eq_of_lt hlt]
          · rw [if_neg hc] at hlt
            exact absurd hlt hc })
  else none

/-- The first slot in use that has the id. -/
def lookup (r : IntentRing depth slotCapacity) (intentId : UInt16) : Option Bytes :=
  ((r.slots.toList.take r.count).find? fun s => s.used && s.intentId == intentId).map fun s => s.view

def clear (r : IntentRing depth slotCapacity) : IntentRing depth slotCapacity where
  slots := r.slots.map fun s => { s with used := false }
  head := 0
  count := 0
  fits := Nat.zero_le _
  wraps := Nat.zero_mod _
  starts := fun _ => rfl

/-- The same ring with its oldest slot. -/
def ring (r : IntentRing depth slotCapacity) : Circular (IntentSlot slotCapacity) depth where
  slots := r.slots
  head := r.head
  tail := if r.count < depth then 0 else r.head
  count := r.count
  fits := r.fits
  wraps := by
    split
    · exact Nat.zero_mod _
    · exact r.wraps
  meets := by
    split
    · rename_i h
      rw [Nat.zero_add, r.starts h, Nat.mod_eq_of_lt h]
    · rename_i h
      rw [Nat.le_antisymm r.fits (Nat.not_lt.mp h), Nat.add_mod_right, r.wraps]

def contents (r : IntentRing depth slotCapacity) : List (Bool × UInt16 × Bytes) := r.ring.items IntentSlot.tagged

end IntentRing

end SlopSync.Rings
