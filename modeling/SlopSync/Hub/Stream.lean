import SlopSync.Hub.Lifecycle

/-! # STREAM ingress

Motion bundles.  A bundle is dropped whole or delivered whole; only two kinds of drop are answered, each with a
throttled NACK. -/

namespace SlopSync

section

variable {ε : Type} (w : World ε) (c : Config)

/-- At most one back-pressure NACK in this many milliseconds. -/
def kOverageNackIntervalMs : UInt32 := 1000 / UInt32.ofNat Limits.streamIngressOverageNackPerS

def dropBundle (i : SlotIdx) (s : Sys ε) : Sys ε :=
  s.modSession i fun se => { se with streamBundlesDropped := se.streamBundlesDropped + 1 }

def modGrant (i : SlotIdx) (ch : UInt16) (f : PublishGrant → PublishGrant) (s : Sys ε) : Sys ε :=
  s.modSession i fun se => { se with publishGrants := se.publishGrants.modify ch f }

/-- `pg` is the grant of `ch` as the overdrawn bundle left it. -/
def sendStreamOverageNack (i : SlotIdx) (pg : PublishGrant) (ch : UInt16) (nowMs : UInt32) (s : Sys ε) : Sys ε :=
  if pg.everNackedOverage && !timeReached nowMs (pg.lastOverageNackMs + kOverageNackIntervalMs) then s
  else
    let s := modGrant i ch (fun g => { g with everNackedOverage := true, lastOverageNackMs := nowMs }) s
    sendNackTracked w c i { code := .rateLimited, channelId := some ch } nowMs s

/-- The record of `src` with its last refusal at `nowMs`, or nothing while it is throttled or the table is
full. -/
def stampConflict (rs : List (Option (UInt8 × UInt32))) (src : UInt8) (nowMs : UInt32) :
    Option (List (Option (UInt8 × UInt32))) :=
  match Keyed.findUsed (fun r => r.1 == src) rs with
  | none => Keyed.fillFirst (src, nowMs) rs
  | some (_, lastMs) =>
    if timeReached nowMs (lastMs + kOverageNackIntervalMs) then
      some (Keyed.modifyFirst (fun o => o.any fun r => r.1 == src) (fun _ => some (src, nowMs)) rs)
    else none

def sendSourceConflictNack (i : SlotIdx) (src : UInt8) (ch : UInt16) (nowMs : UInt32) (s : Sys ε) : Sys ε :=
  match stampConflict (s.slot i).conflictNacks src nowMs with
  | none => s
  | some conflictNacks =>
    let s := s.modSlot i fun sl => { sl with conflictNacks }
    sendNackTracked w c i { code := .sourceConflict, channelId := some ch } nowMs s

/-- Winning the source clears its throttle. -/
def clearConflict (src : UInt8) (sl : Slot) : Slot :=
  { sl with conflictNacks := sl.conflictNacks.map fun o => if o.any (fun r => r.1 == src) then none else o }

/-- The source of a mapped channel, without a takeover; false when another session owns it. -/
def acquireForStream (i : SlotIdx) (ch : UInt16) (src : UInt8) (nowMs : UInt32) (s : Sys ε) : Bool × Sys ε :=
  let sid := (s.session i).sessionId
  let (res, ownership) := s.hub.ownership.acquire src sid (s.session i).role false
  let s : Sys ε := { s with hub := { s.hub with ownership } }
  match res with
  | .conflict => (false, sendSourceConflictNack w c i src ch nowMs (dropBundle i s))
  | .acquired =>
    (true, (publishControlOwnerStateIfPresent c (notify w (.onSourceOwnership src sid 0) s)).modSlot i
      (clearConflict src))
  | .alreadyOwner | .takenOver => (true, s)

def deliverBundle (i : SlotIdx) (ch : UInt16) (mapped : Option UInt8) (bundle : BundleView) (s : Sys ε) : Sys ε :=
  let s := (s.modSession i fun se => { se with streamBundlesAccepted := se.streamBundlesAccepted + 1 }).log
    (.delivered i ch mapped)
  notify w (.onStreamBundle ch (s.session i).sessionId bundle) s

/-- The bundle was parsed and is in its rate: take the source and deliver. -/
def routeBundle (i : SlotIdx) (ch : UInt16) (bundle : BundleView) (nowMs : UInt32) (s : Sys ε) : Sys ε :=
  let (mapped, env) := w.sourceForChannel ch s.env
  let s : Sys ε := { s with env }
  match mapped with
  | none => deliverBundle w i ch none bundle s
  | some src =>
    let (ok, s) := acquireForStream w c i ch src nowMs s
    if ok then deliverBundle w i ch (some src) bundle s else s

/-- A segment may not be scheduled too far ahead of the hub's clock. -/
def tooFarAhead (entry : CatalogEntry) (bundle : BundleView) (nowUs : UInt32) : Bool :=
  entry.isSegmentClass && decide (timeDelta bundle.tBase nowUs > (Limits.maxFutureScheduleMs.toNat : Int) * 1000)

/-- The bundle of a payload on a channel the session may publish to. -/
def parseBundle (ch : UInt16) (payload : Bytes) (nowUs : UInt32) : Option BundleView :=
  match c.catalog.find ch with
  | none => none
  | some entry =>
    if entry.cls ≠ .stream ∨ entry.dir ≠ .c2h then none
    else match BundleView.parse payload entry.layoutWireSize with
      | none => none
      | some bundle => if bundle.sampleCount = 0 || tooFarAhead entry bundle nowUs then none else some bundle

def handleStream (i : SlotIdx) (ch : UInt16) (payload : Bytes) (nowMs : UInt32) (s : Sys ε) : Sys ε :=
  if !(s.session i).ready then dropBundle i s
  else match (s.session i).publishGrants.find ch with
    | none => dropBundle i s
    | some pg =>
      match parseBundle c ch payload (w.nowUs s.env) with
      | none => dropBundle i s
      | some bundle =>
        let (ok, limiter) := pg.limiter.allowN nowMs bundle.sampleCount
        let s := modGrant i ch (fun g => { g with limiter }) s
        if !ok then sendStreamOverageNack w c i { pg with limiter } ch nowMs (dropBundle i s)
        else routeBundle w c i ch bundle nowMs s

end

end SlopSync
