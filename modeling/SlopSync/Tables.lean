import SlopSync.Keyed
import SlopSync.Messages
import SlopSync.Serial

/-! # Bounded tables of the channel layer

`channel/subscription.hpp`, `channel/retained_store.hpp`, `channel/event_channel.hpp`,
`channel/log_channel.hpp` and `channel/intent_registry.hpp`.  Each table carries its capacity as a field,
so that an overfull one cannot be built. -/

namespace SlopSync

open Keyed

/-! ## Subscriptions -/

structure SubscriptionEntry where
  channelId : UInt16
  grantedRateHz : F32
  priority : Priority
  everPushed : Bool := false
  lastPushMs : UInt32 := 0
  deriving DecidableEq, Repr

/-- Push on grant; after that only a pending change, and at most once per period. -/
def SubscriptionEntry.dueForPush (e : SubscriptionEntry) (nowMs : UInt32) (changePending : Bool) : Bool :=
  if !e.everPushed then true
  else if !changePending then false
  else if e.grantedRateHz.le 0 then true
  else
    let periodMs := match e.grantedRateHz with
      | .fin q => UInt32.ofNat ((1000 : ℚ) / q).floor.toNat
      | _ => 0
    timeReached nowMs (e.lastPushMs + periodMs)

def SubscriptionEntry.markPushed (e : SubscriptionEntry) (nowMs : UInt32) : SubscriptionEntry :=
  { e with everPushed := true, lastPushMs := nowMs }

structure SubscriptionTable where
  entries : List SubscriptionEntry := []
  fits : entries.length ≤ Limits.maxSubscriptionsPerSession := by first | exact Nat.zero_le _ | decide
  deriving DecidableEq

namespace SubscriptionTable

def find (t : SubscriptionTable) (ch : UInt16) : Option SubscriptionEntry :=
  t.entries.find? (fun e => e.channelId == ch)

/-- Rewrite the first entry of `ch`, keeping its place. -/
def update (t : SubscriptionTable) (ch : UInt16) (f : SubscriptionEntry → SubscriptionEntry) :
    SubscriptionTable where
  entries := modifyFirst (fun e => e.channelId == ch) f t.entries
  fits := by simpa using t.fits

/-- Re-subscribing resets the pacing so that the value is pushed at once.  Refused only when a new channel
meets a full table. -/
def upsert (t : SubscriptionTable) (ch : UInt16) (rate : F32) (priority : Priority) :
    Option SubscriptionTable :=
  if (t.find ch).isSome then
    some (t.update ch fun e =>
      { e with grantedRateHz := rate, priority, everPushed := false, lastPushMs := 0 })
  else if h : t.entries.length < Limits.maxSubscriptionsPerSession then
    some ⟨t.entries ++ [{ channelId := ch, grantedRateHz := rate, priority }],
      by rw [List.length_append]; exact h⟩
  else none

def remove (t : SubscriptionTable) (ch : UInt16) : SubscriptionTable where
  entries := t.entries.eraseP (fun e => e.channelId == ch)
  fits := (List.length_eraseP_le).trans t.fits

def channels (t : SubscriptionTable) : List UInt16 := t.entries.map SubscriptionEntry.channelId

theorem mem_channels {t : SubscriptionTable} {ch : UInt16} : ch ∈ t.channels ↔ (t.find ch).isSome = true := by
  simp [channels, find, List.find?_isSome]

/-- A rewrite that keeps the channel of an entry keeps the channels. -/
theorem channels_update (t : SubscriptionTable) (ch : UInt16) {f : SubscriptionEntry → SubscriptionEntry}
    (hf : ∀ e, (f e).channelId = e.channelId) : (t.update ch f).channels = t.channels :=
  map_modifyFirst hf t.entries

/-- A subscription adds its own channel and no other. -/
theorem channels_upsert {t t' : SubscriptionTable} {ch : UInt16} {rate : F32} {p : Priority}
    (h : t.upsert ch rate p = some t') : ch ∈ t'.channels ∧ ∀ x ∈ t'.channels, x ∈ t.channels ∨ x = ch := by
  unfold upsert at h
  split at h
  · rename_i hf
    cases h
    rw [channels_update t ch]
    · exact ⟨mem_channels.mpr hf, fun x hx => .inl hx⟩
    · exact fun _ => rfl
  · split at h
    · cases h
      simp only [channels, List.map_append, List.map_cons, List.map_nil, List.mem_append, List.mem_singleton]
      exact ⟨.inr trivial, fun x hx => hx⟩
    · cases h

theorem channels_remove {t : SubscriptionTable} {ch x : UInt16} (h : x ∈ (t.remove ch).channels) :
    x ∈ t.channels := by
  obtain ⟨e, he, rfl⟩ := List.mem_map.mp h
  exact List.mem_map_of_mem (List.mem_of_mem_eraseP he)

end SubscriptionTable

/-! ## Retained values -/

structure RetainedEntry where
  channelId : UInt16
  seq : UInt16
  payload : Bytes
  deriving DecidableEq, Repr

theorem RetainedStore.nil_fits : ([] : List RetainedEntry).length ≤ 32 := Nat.zero_le 32

structure RetainedStore where
  entries : List RetainedEntry := []
  fits : entries.length ≤ 32 := by first | exact RetainedStore.nil_fits | decide
  deriving DecidableEq

namespace RetainedStore

def get (s : RetainedStore) (ch : UInt16) : Option RetainedEntry :=
  s.entries.find? (fun e => e.channelId == ch)

/-- Overwrite the snapshot of a channel and bump its sequence number.  Refused when the payload is over
the transport floor or a new channel meets a full store. -/
def publish (s : RetainedStore) (ch : UInt16) (payload : Bytes) : Option (RetainedStore × UInt16) :=
  if Limits.minTransportPayload < payload.length then none
  else match s.get ch with
    | some old =>
      some (⟨modifyFirst (fun e => e.channelId == ch) (fun e => { e with seq := e.seq + 1, payload }) s.entries,
        by simpa using s.fits⟩, old.seq + 1)
    | none =>
      if h : s.entries.length < 32 then
        some (⟨s.entries ++ [{ channelId := ch, seq := 1, payload }], by rw [List.length_append]; exact h⟩, 1)
      else none

/-- A new channel would be refused. -/
def Crowded (s : RetainedStore) (ch : UInt16) : Prop := s.get ch = none ∧ s.entries.length = 32

section

variable {s r : RetainedStore} {ch : UInt16} {payload : Bytes} {n : UInt16}

theorem get_publish_self (h : s.publish ch payload = some (r, n)) :
    (r.get ch).map RetainedEntry.payload = some payload := by
  unfold publish at h
  split at h
  · cases h
  · split at h
    · rename_i old hold
      cases h
      have hself := find?_modifyFirst_self (p := fun e : RetainedEntry => e.channelId == ch)
        (f := fun e => { e with seq := e.seq + 1, payload }) (fun _ => rfl) s.entries
      rw [get, hself, show s.entries.find? (fun e => e.channelId == ch) = some old from hold]
      rfl
    · rename_i hnone
      split at h
      · cases h
        rw [get, List.find?_append, show s.entries.find? (fun e => e.channelId == ch) = none from hnone]
        simp
      · cases h

theorem get_publish_other {x : UInt16} (hne : x ≠ ch) (h : s.publish ch payload = some (r, n)) : r.get x = s.get x := by
  unfold publish at h
  split at h
  · cases h
  · split at h
    · cases h
      refine find?_modifyFirst_other (fun e he => ?_) (fun e he => ?_) s.entries <;>
        simp only [beq_iff_eq] at he <;> simp [he, hne.symm]
    · split at h
      · cases h
        rw [get, List.find?_append]
        simp [get, hne.symm]
      · cases h

theorem length_publish (h : s.publish ch payload = some (r, n)) : s.entries.length ≤ r.entries.length := by
  unfold publish at h
  split at h
  · cases h
  · split at h
    · cases h
      simp
    · split at h
      · cases h
        simp
      · cases h

theorem crowded_of_refused (hlen : payload.length ≤ Limits.minTransportPayload) (h : s.publish ch payload = none) :
    s.Crowded ch := by
  unfold publish at h
  split at h
  · omega
  · split at h
    · cases h
    · rename_i hnone
      split at h
      · cases h
      · exact ⟨hnone, le_antisymm s.fits (by omega)⟩

end

end RetainedStore

/-! ## Event queues -/

structure QueuedEvent where
  channelId : UInt16
  bytes : Bytes
  deriving DecidableEq, Repr

def kEventSlotCapacity : Nat := 192

/-- One session's queue, for all of its EVENT channels. -/
structure EventQueue where
  queued : List QueuedEvent := []
  eventsDropped : UInt32 := 0
  fits : queued.length ≤ Limits.eventQueueDepthPerSubscriber := by first | exact Nat.zero_le _ | decide
  deriving DecidableEq

/-- An event over the slot size is not queued at all. -/
def EventQueue.push (q : EventQueue) (ch : UInt16) (bytes : Bytes) : EventQueue :=
  if kEventSlotCapacity < bytes.length then q
  else
    { queued := dropOldest Limits.eventQueueDepthPerSubscriber q.queued ⟨ch, bytes⟩
      eventsDropped :=
        if q.queued.length = Limits.eventQueueDepthPerSubscriber then q.eventsDropped + 1 else q.eventsDropped
      fits := length_dropOldest (by decide) q.fits _ }

theorem EventQueue.mem_push {q : EventQueue} {ch : UInt16} {bytes : Bytes} {e : QueuedEvent}
    (h : e ∈ (q.push ch bytes).queued) : e ∈ q.queued ∨ e.channelId = ch := by
  unfold push at h
  split at h
  · exact .inl h
  · rcases mem_dropOldest h with h | rfl
    · exact .inl h
    · exact .inr rfl

def EventQueue.pop (q : EventQueue) : Option (QueuedEvent × EventQueue) :=
  match h : q.queued with
  | [] => none
  | e :: rest => some (e, { q with queued := rest, fits := by have := q.fits; rw [h] at this; exact Nat.le_of_succ_le this })

theorem EventQueue.pop_some {q rest : EventQueue} {e : QueuedEvent} (h : q.pop = some (e, rest)) :
    q.queued = e :: rest.queued := by
  unfold pop at h
  split at h
  · cases h
  · rename_i he
    cases h
    exact he

theorem EventQueue.pop_cons {q : EventQueue} {e : QueuedEvent} {l : List QueuedEvent} (h : q.queued = e :: l) :
    ∃ rest, q.pop = some (e, rest) ∧ rest.queued = l ∧ rest.eventsDropped = q.eventsDropped := by
  unfold pop
  split
  · rename_i he
    rw [h] at he
    cases he
  · rename_i he
    rw [h] at he
    cases he
    exact ⟨_, rfl, rfl, rfl⟩

/-- The log channel's tail, replayed to a new subscriber. -/
structure EventReplayRing where
  entries : List Bytes := []
  dropped : UInt32 := 0
  fits : entries.length ≤ Limits.logReplayDepthDefault := by first | exact Nat.zero_le _ | decide
  deriving DecidableEq

def EventReplayRing.push (r : EventReplayRing) (bytes : Bytes) : EventReplayRing :=
  if kEventSlotCapacity < bytes.length then r
  else
    { entries := dropOldest Limits.logReplayDepthDefault r.entries bytes
      dropped := if r.entries.length = Limits.logReplayDepthDefault then r.dropped + 1 else r.dropped
      fits := length_dropOldest (by decide) r.fits _ }

/-- The newest `want` entries, oldest first. -/
def EventReplayRing.newest (r : EventReplayRing) (want : Nat) : List Bytes :=
  r.entries.drop (r.entries.length - want)

end SlopSync
