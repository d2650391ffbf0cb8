import SlopSync.FiniteMaps
import SlopSync.Ownership
import SlopSync.Rings
import SlopSync.Session

/-! # The keyed tables in memory

`SubscriptionTable` of `channel/subscription.hpp`, `RetainedStore` of `channel/retained_store.hpp`, the publish grants of
`session/session.hpp`, `PendingPairingList` of `session/pairing.hpp` and `SourceOwnershipTable` of `session/safety.hpp`,
each as the array that it is. -/

namespace SlopSync.Arrays

open FiniteMaps Rings

/-! ## Subscriptions -/

abbrev SubscriptionTable (capacity : Nat) := Filled SubscriptionEntry capacity

namespace SubscriptionTable

variable {capacity : Nat}

def empty : SubscriptionTable capacity := Filled.empty { channelId := 0, grantedRateHz := 0, priority := .normal }

def find (t : SubscriptionTable capacity) (ch : UInt16) : Option SubscriptionEntry :=
  Filled.find t (isAt SubscriptionEntry.channelId ch)

def upsert (t : SubscriptionTable capacity) (ch : UInt16) (rate : F32) (priority : Priority) :
    Bool × SubscriptionTable capacity :=
  Filled.upsert t SubscriptionEntry.channelId ch
    (fun e => { e with grantedRateHz := rate, priority, everPushed := false, lastPushMs := 0 })
    { channelId := ch, grantedRateHz := rate, priority }

def remove (t : SubscriptionTable capacity) (ch : UInt16) : Bool × SubscriptionTable capacity :=
  Filled.remove t (isAt SubscriptionEntry.channelId ch)

/-- What is written through the pointer that `find` hands out, such as `markPushed`. -/
def edit (t : SubscriptionTable capacity) (ch : UInt16) (f : Edit SubscriptionEntry.channelId) :
    SubscriptionTable capacity := t.modify (isAt SubscriptionEntry.channelId ch) f.apply

end SubscriptionTable

/-! ## Retained values -/

structure RetainedSlot extends Cell Limits.minTransportPayload where
  channelId : UInt16 := 0
  valid : Bool := false
  seq : UInt16 := 0

namespace RetainedSlot

def blank : RetainedSlot := { Cell.blank with }

def publish (payload : Bytes) (h : payload.length ≤ Limits.minTransportPayload) (e : RetainedSlot) : RetainedSlot :=
  { e.toCell.copy payload h with channelId := e.channelId, valid := true, seq := e.seq + 1 }

def shown (e : RetainedSlot) : RetainedEntry where
  channelId := e.channelId
  seq := e.seq
  payload := e.view

end RetainedSlot

abbrev RetainedStore (capacity : Nat) := Filled RetainedSlot capacity

namespace RetainedStore

variable {capacity : Nat}

def empty : RetainedStore capacity := Filled.empty .blank

def find (s : RetainedStore capacity) (ch : UInt16) : Option RetainedSlot := Filled.find s (isAt RetainedSlot.channelId ch)

/-- The sequence number of the snapshot, or nothing when it is refused. -/
def publish (s : RetainedStore capacity) (ch : UInt16) (payload : Bytes) : Option UInt16 × RetainedStore capacity :=
  if hlen : Limits.minTransportPayload < payload.length then (none, s)
  else
    match find s ch with
    | some e =>
      (some (e.seq + 1), s.modify (isAt RetainedSlot.channelId ch) (RetainedSlot.publish payload (Nat.not_lt.mp hlen)))
    | none =>
      if h : s.count < capacity then
        let e := RetainedSlot.publish payload (Nat.not_lt.mp hlen) { RetainedSlot.blank with channelId := ch }
        (some e.seq, s.append e h)
      else (none, s)

def get (s : RetainedStore capacity) (ch : UInt16) : Option RetainedEntry :=
  ((find s ch).filter RetainedSlot.valid).map RetainedSlot.shown

end RetainedStore

/-! ## Publish grants -/

abbrev PublishGrants := Slotted PublishGrant kMaxPublishGrants

namespace PublishGrants

def publishGrantFor (t : PublishGrants) (ch : UInt16) : Option PublishGrant := t.find (isAt PublishGrant.channelId ch)

/-- What a grant of `addPublishGrant` comes to, whatever was there before. -/
def granted (rate : F32) (nowMs : UInt32) (burst : F32) (burstRequested : Bool) (curveFamily : UInt8) (g : PublishGrant) :
    PublishGrant :=
  let ratePerSec := if rate.lt (.ofNat 1) then 1 else rate.toUInt32
  let capacity := if F32.lt 0 burst then burst else .ofNat ratePerSec.toNat
  { g with
    grantedRateHz := rate, grantedBurst := capacity, burstRequested
    limiter := .make ratePerSec nowMs capacity
    everNackedOverage := false, lastOverageNackMs := 0, curveFamily }

def addPublishGrant (t : PublishGrants) (ch : UInt16) (rate : F32) (nowMs : UInt32) (burst : F32) (burstRequested : Bool)
    (curveFamily : UInt8) : Bool × PublishGrants :=
  t.upsert PublishGrant.channelId ch (granted rate nowMs burst burstRequested curveFamily)
    (granted rate nowMs burst burstRequested curveFamily { channelId := ch })

/-- What is written through the pointer of `publishGrantFor`: the bucket and the throttle of the answers. -/
def edit (t : PublishGrants) (ch : UInt16) (f : Edit PublishGrant.channelId) : PublishGrants :=
  t.modify (isAt PublishGrant.channelId ch) f.apply

end PublishGrants

/-! ## Pending knocks -/

abbrev PendingPairingList (cap : Nat) := Slotted PendingKnock cap

namespace PendingPairingList

variable {cap : Nat}

def find (t : PendingPairingList cap) (inst : InstanceId) : Option PendingKnock :=
  Slotted.find t (isAt PendingKnock.instanceId inst)

/-- Both callers hand over an array of the width of an instance id. -/
def add (t : PendingPairingList cap) (inst : InstanceId) (sid expiresAtMs : UInt32) (mode : UInt8) :
    Bool × PendingPairingList cap :=
  t.upsert PendingKnock.instanceId inst (fun k => { k with sessionId := sid, expiresAtMs, mode })
    { instanceId := inst, sessionId := sid, expiresAtMs, mode }

/-- What is written through the pointer of `add`: how the device calls itself. -/
def edit (t : PendingPairingList cap) (inst : InstanceId) (f : Edit PendingKnock.instanceId) : PendingPairingList cap :=
  t.modify (isAt PendingKnock.instanceId inst) f.apply

def remove (t : PendingPairingList cap) (inst : InstanceId) : Bool × PendingPairingList cap :=
  if (find t inst).isSome then (true, t.free (isAt PendingKnock.instanceId inst)) else (false, t)

/-- The knocks that `fn` is called with, in the order of the array, and the list without them. -/
def sweep (t : PendingPairingList cap) (p : PendingKnock → Bool) : List PendingKnock × PendingPairingList cap :=
  (t.live.filter p, t.freeAll p)

def expire (t : PendingPairingList cap) (nowMs : UInt32) : List PendingKnock × PendingPairingList cap :=
  sweep t (SlopSync.PendingPairingList.expired nowMs)

def dropBySession (t : PendingPairingList cap) (sid : UInt32) : List PendingKnock × PendingPairingList cap :=
  sweep t (SlopSync.PendingPairingList.ofSession sid)

end PendingPairingList

/-! ## Source ownership -/

abbrev SourceOwnershipTable := Slotted OwnerEntry kMaxSources

namespace SourceOwnershipTable

def find (t : SourceOwnershipTable) (src : UInt8) : Option OwnerEntry := Slotted.find t (isAt OwnerEntry.sourceId src)

def findOrCreate (t : SourceOwnershipTable) (src : UInt8) : Option SourceOwnershipTable :=
  if (find t src).isSome then some t else t.fill { sourceId := src }

def acquire (t : SourceOwnershipTable) (src : UInt8) (sid : UInt32) (role : AccessLevel) (takeover : Bool) :
    AcquireResult × SourceOwnershipTable :=
  match findOrCreate t src with
  | none => (.conflict, t)
  | some t' =>
    let own := t'.modify (isAt OwnerEntry.sourceId src) fun e => { e with owner := sid, role }
    match find t' src with
    | none => (.conflict, t')
    | some e =>
      if e.owner = 0 then (.acquired, own)
      else if e.owner = sid then (.alreadyOwner, t')
      else if takeover && decide (e.role ≤ role) then (.takenOver, own)
      else (.conflict, t')

def released (e : OwnerEntry) : OwnerEntry := { e with owner := 0, role := .watch }

def release (t : SourceOwnershipTable) (src : UInt8) (sid : UInt32) : Bool × SourceOwnershipTable :=
  if (find t src).any fun e => e.owner == sid then (true, t.modify (isAt OwnerEntry.sourceId src) released) else (false, t)

/-- The sources that `cb` is called with, in the order of the array. -/
def releaseAllOf (t : SourceOwnershipTable) (sid : UInt32) : List UInt8 × SourceOwnershipTable :=
  ((t.live.filter fun e => e.owner == sid).map OwnerEntry.sourceId, t.each fun e => if e.owner == sid then released e else e)

end SourceOwnershipTable

end SlopSync.Arrays
