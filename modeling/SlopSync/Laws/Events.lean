import SlopSync.Fates
import SlopSync.Laws.Tallies

/-! # Where the events go

The events of a session wait in one queue.  An offer that finds it full costs the oldest one, a drain hands the events to
the transport one by one.

- `events_accounted`: of what was offered to a session and fits a slot, the queue has the newest; every other event was
  handed to the transport, once and in order, or was dropped, and `eventsDropped` counts those (mod 2^32).  What the
  transport refused counts as handed over: it is not tried again.  What is over the slot size is refused by the queue and
  counted nowhere, although `publishEvent` says that it was published. -/

namespace SlopSync

open Fates Keyed

/-- What was offered to a session, and what its transport was handed and answered. -/
structure EventBook where
  offered : List QueuedEvent := []
  handed : List (QueuedEvent × Bool) := []
  deriving DecidableEq, Repr

def eventTally : Tally EventBook where
  blank := {}
  offered b ch bytes := { b with offered := b.offered ++ [⟨ch, bytes⟩] }
  sent b ch bytes ok := { b with handed := b.handed ++ [(⟨ch, bytes⟩, ok)] }
  pushed b _ _ _ := b
  published b _ := b

/-- The queue has slots for it. -/
def QueuedEvent.fits (ev : QueuedEvent) : Bool := ev.bytes.length ≤ kEventSlotCapacity

/-- Book and queue agree, and what is queued fits a frame. -/
structure Booked (b : EventBook) (q : EventQueue) : Prop where
  accounts : ∃ n, Accounts (b.offered.filter QueuedEvent.fits) q.queued (b.handed.map Prod.fst) n ∧ q.eventsDropped = UInt32.ofNat n
  short : ∀ ev ∈ q.queued, ev.bytes.length ≤ kEventSlotCapacity

theorem fitting_concat (offered : List QueuedEvent) (ev : QueuedEvent) :
    (offered ++ [ev]).filter QueuedEvent.fits =
      offered.filter QueuedEvent.fits ++ if ev.bytes.length ≤ kEventSlotCapacity then [ev] else [] := by
  simp [List.filter_append, List.filter_singleton, QueuedEvent.fits]

/-- An offer. -/
theorem Booked.offer {b : EventBook} {q : EventQueue} (h : Booked b q) (ch : UInt16) (bytes : Bytes) :
    Booked (eventTally.offered b ch bytes) (q.push ch bytes) := by
  unfold EventQueue.push eventTally
  dsimp only
  split
  · -- the queue refuses it
    rename_i hlen
    refine ⟨?_, h.short⟩
    rw [fitting_concat, if_neg (Nat.not_le.mpr hlen), List.append_nil]
    exact h.accounts
  rename_i hlen
  obtain ⟨n, haccounts, hdropped⟩ := h.accounts
  rw [Nat.not_lt] at hlen
  have hgiven := haccounts.give (show 0 < Limits.eventQueueDepthPerSubscriber by decide) ⟨ch, bytes⟩
  constructor
  · rw [fitting_concat, if_pos hlen]
    refine ⟨_, hgiven, ?_⟩
    dsimp only
    split
    · rw [hdropped, UInt32.ofNat_add]
      rfl
    · exact hdropped
  · intro ev hev
    rcases mem_dropOldest hev with hev | rfl
    · exact h.short ev hev
    · exact hlen

/-- The oldest event leaves the queue. -/
theorem Booked.pop {b : EventBook} {q rest : EventQueue} {ev : QueuedEvent} (h : Booked b q)
    (hpop : q.pop = some (ev, rest)) (ok : Bool) :
    Booked (eventTally.sent b ev.channelId ev.bytes ok) rest := by
  obtain ⟨n, haccounts, hdropped⟩ := h.accounts
  have hq := EventQueue.pop_some hpop
  obtain ⟨rest', hpop', -, hsame⟩ := EventQueue.pop_cons hq
  obtain rfl : rest' = rest := by
    rw [hpop] at hpop'
    exact (Prod.mk.inj (Option.some.inj hpop')).2.symm
  rw [hq] at haccounts
  constructor
  · refine ⟨n, ?_, hsame.trans hdropped⟩
    show Accounts (b.offered.filter QueuedEvent.fits) _ ((b.handed ++ [(ev, ok)]).map Prod.fst) n
    rw [List.map_append]
    exact haccounts.take
  · intro x hx
    exact h.short x (hq ▸ List.mem_cons_of_mem ev hx)

end SlopSync
