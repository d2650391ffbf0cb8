import SlopSync.CborReader
import SlopSync.Hub.Lifecycle

/-! # Subscriptions and publish grants

SUBSCRIBE, UNSUBSCRIBE, PUBLISH and CATALOG_READY.  HELLO grants its wishes through the same two functions,
`trySubscribe` and `grantPublishWish`; only what happens to a refused wish differs. -/

namespace SlopSync

section

variable {ε : Type} (w : World ε) (c : Config)

/-- The wish cut to the catalog's ceiling; a channel without one is on-change only. -/
def clampRate (wish ceiling : F32) : F32 :=
  if ceiling.le 0 then 0 else F32.min wish ceiling

/-- Queue the log tail for a subscriber that was just granted the log channel. -/
def replayEventsOnGrant (i : SlotIdx) (ch : UInt16) (s : Sys ε) : Sys ε :=
  match c.catalog.find ch with
  | none => s
  | some entry =>
    if entry.cls ≠ .event || entry.replayDepth.getD 0 == 0 || ch != Channels.log then s
    else (s.hub.logRing.newest (entry.replayDepth.getD 0)).foldl (offerEvent i ch) s

/-- Grant one subscription wish, or say why not. -/
def trySubscribe (i : SlotIdx) (wish : SubscriptionWish) (s : Sys ε) : Except NackCode Grant × Sys ε :=
  match c.catalog.find wish.channelId with
  | none => (.error .unknownChannel, s)
  | some entry =>
    if entry.cls = .intent ∨ entry.cls = .store then (.error .classMismatch, s)
    else if (s.session i).role < entry.access then (.error .accessDenied, s)
    else
      let rate := clampRate wish.rateHz entry.maxRateHz
      let rate := if rate.lt 0 then 0 else rate
      match (s.session i).subs.upsert wish.channelId rate entry.defaultPriority with
      | none => (.error .subLimit, s)
      | some subs =>
        let s := s.modSession i fun se => { se with subs }
        (.ok { channelId := wish.channelId, grantedRateHz := rate, priority := entry.defaultPriority },
          replayEventsOnGrant c i wish.channelId s)

/-- A wish of a SUBSCRIBE: a refused one is NACKed with its channel. -/
def subscribeOne (i : SlotIdx) (acc : List Grant × Sys ε) (wish : SubscriptionWish) : List Grant × Sys ε :=
  match trySubscribe c i wish acc.2 with
  | (.error code, s) => (acc.1, sendNack w i { code, channelId := some wish.channelId } s)
  | (.ok g, s) => (if acc.1.length < kWelcomeMaxGrants then acc.1 ++ [g] else acc.1, s)

def handleSubscribe (i : SlotIdx) (msg : Except DecodeError (List SubscriptionWish)) (s : Sys ε) : Sys ε :=
  match msg with
  | .error e =>
    sendNack w i
      { code := .subscribeRejected
        detail := some (if e = .capacityExceeded then "too many wishes per frame" else "undecodable subscribe") } s
  | .ok wishes =>
    let (grants, s) := wishes.foldl (subscribeOne w c i) ([], s)
    if grants.isEmpty then s else sendEncoded w i .grant (encodeGrant w.f32Bits { grants } 400) s

def handleUnsubscribe (i : SlotIdx) (msg : Option (List UInt16)) (s : Sys ε) : Sys ε :=
  match msg with
  | none => s
  | some chs => s.modSession i fun se => { se with subs := chs.foldl SubscriptionTable.remove se.subs }

/-! ## Publishes -/

/-- A wished burst lies between the rate and its multiple. -/
def clampBurst (rate : F32) (wish : Option F32) : F32 :=
  match wish with
  | none => rate
  | some b =>
    let ceiling := rate.mul (.ofNat Limits.maxBurstMultiple)
    let b := if F32.lt 0 b then b else rate
    let b := if b.lt rate then rate else b
    if ceiling.lt b then ceiling else b

/-- Ask the delegate which curve family it will follow. -/
def effectiveFamily (ch : UInt16) (family : Option UInt8) (s : Sys ε) : UInt8 × Sys ε :=
  match family with
  | none => (0, s)
  | some f =>
    let (eff, env) := w.effectiveCurveFamily ch (if f ≤ 3 then f else 0) s.env
    (eff, { s with env })

/-- A wish that fails is simply absent from the grants. -/
def grantPublishWish (i : SlotIdx) (wish : PublishWish) (nowMs : UInt32) (s : Sys ε) :
    Option GrantedPublish × Sys ε :=
  match c.catalog.find wish.channelId with
  | none => (none, s)
  | some entry =>
    if entry.cls ≠ .stream ∨ entry.dir ≠ .c2h ∨ (s.session i).role < entry.access then (none, s)
    else
      let rate := clampRate wish.rateHz entry.maxRateHz
      if rate.le 0 then (none, s)
      else
        let burst := clampBurst rate wish.burst
        let (family, s) := effectiveFamily w wish.channelId wish.curveFamily s
        match (s.session i).addPublishGrant wish.channelId rate nowMs burst wish.burst.isSome family with
        | none => (none, s)
        | some se =>
          (some { channelId := wish.channelId, grantedRateHz := rate
                  burst := wish.burst.map fun _ => burst
                  curveFamily := wish.curveFamily.map fun _ => family
                  requestedCurveFamily := wish.curveFamily },
            s.modSession i fun _ => se)

def publishOne (i : SlotIdx) (nowMs : UInt32) (acc : List GrantedPublish × Sys ε) (wish : PublishWish) :
    List GrantedPublish × Sys ε :=
  let (gp, s) := grantPublishWish w c i wish nowMs acc.2
  match gp with
  | none => (acc.1, s)
  | some g => (if acc.1.length < kWelcomeMaxGrantedPublishes then acc.1 ++ [g] else acc.1, s)

def handlePublish (i : SlotIdx) (msg : Option (List PublishWish)) (nowMs : UInt32) (s : Sys ε) : Sys ε :=
  match msg with
  | none => sendNackTracked w c i { code := .malformed } nowMs s
  | some wishes =>
    let (grantedPublishes, s) := wishes.foldl (publishOne w c i nowMs) ([], s)
    sendEncodedTracked w c i .grant (encodeGrant w.f32Bits { grantedPublishes } 400) nowMs s

/-- The client holds a catalog, if not always ours. -/
def handleCatalogReady (i : SlotIdx) (etag : Option Etag) (s : Sys ε) : Sys ε :=
  match etag with
  | none => s
  | some e => s.modSession i fun se => { se with ready := true, readyEtagMismatch := e != c.etag }

end

end SlopSync
