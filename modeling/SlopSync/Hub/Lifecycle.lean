import SlopSync.Hub.Send

/-! # How sessions end, go stale and come back

The retained snapshots the hub owns, the release of a session's sources, and every operation that suspends,
ends, parks or revives a session: `releaseSessionSources`, `teardownSession`, `markStale`, `reviveIfStale`,
`parkAndDetach`, the tracked sends that park a stalled link, the three liveness pumps, and `attachTransport` /
`detachTransport`. -/

namespace SlopSync

open Keyed

section

variable {ε : Type} (w : World ε) (c : Config)

/-! ## Retained snapshots -/

/-- Publish a snapshot; a refused one leaves the store as it was. -/
def retain (ch : UInt16) (payload : Bytes) (s : Sys ε) : Sys ε :=
  match s.hub.retained.publish ch payload with
  | none => s
  | some (r, _) => { s.log (.published ch) with hub := { s.hub with retained := r } }

def buildSafetyPayload (st : SafetyState) : Bytes :=
  [st.word, st.cause] ++ le32 st.ownerSession ++ le16 st.estopSeq ++ [st.modes]

def publishSafetySnapshot (s : Sys ε) : Sys ε :=
  retain Channels.safety (buildSafetyPayload s.hub.safety) s

/-- Source ids 0 to 3 with their owners. -/
def buildControlOwnerPayload (t : SourceOwnershipTable) : Bytes :=
  ([0, 1, 2, 3] : List UInt8).flatMap fun src => src :: le32 (t.ownerOf src)

def publishControlOwnerStateIfPresent (s : Sys ε) : Sys ε :=
  if (c.catalog.find Channels.controlOwner).isNone then s
  else retain Channels.controlOwner (buildControlOwnerPayload s.hub.ownership) s

/-- One knock in the pending-pairing snapshot; a free slot is all zero. -/
def pendingSlotBytes (nowMs : UInt32) : Option PendingKnock → Bytes
  | none => List.replicate 27 0
  | some k =>
    let remainMs := if timeReached nowMs k.expiresAtMs then 0 else k.expiresAtMs - nowMs
    let remainS := (remainMs + 999) / 1000
    let remainS := if 0xFFFF < remainS then 0xFFFF else remainS
    k.instanceId.val ++ [k.mode] ++ le16 remainS.toUInt16 ++
      (k.name.data.take 16 ++ List.replicate (16 - k.name.data.length) 0)

def buildPendingPayload (p : PairingManager) (nowMs : UInt32) : Bytes :=
  le16 p.generation ++ [UInt8.ofNat p.pending.count, if p.presenceWindowOpen nowMs then 1 else 0] ++
    p.pending.slots.flatMap (pendingSlotBytes nowMs)

def publishPendingPairingState (nowMs : UInt32) (s : Sys ε) : Sys ε :=
  if (c.catalog.find Channels.pendingPairing).isNone then s
  else retain Channels.pendingPairing (buildPendingPayload s.hub.pairing nowMs) s

def publishPairedRosterState (s : Sys ε) : Sys ε :=
  if (c.catalog.find Channels.pairedDevicesRoster).isNone then s
  else retain Channels.pairedDevicesRoster
    (le16 s.hub.pairing.generation ++
      [UInt8.ofNat s.hub.pairing.entryCount, UInt8.ofNat Limits.pairedDevicesMax]) s

def setPairing (p : PairingManager) (s : Sys ε) : Sys ε := { s with hub := { s.hub with pairing := p } }

/-! ## Source ownership -/

/-- Release one source and tell the delegate. -/
def releaseOne (reason : UInt8) (s : Sys ε) (src : UInt8) : Sys ε :=
  notify w (.onSourceOwnership src 0 reason)
    { s with hub := { s.hub with ownership := s.hub.ownership.update src 0 .watch } }

/-- Give up everything a session owns, then republish who is in control. -/
def releaseSessionSources (sid : UInt32) (reason : UInt8) (s : Sys ε) : Sys ε :=
  let owned := s.hub.ownership.ownedBy sid
  if owned.isEmpty then s else publishControlOwnerStateIfPresent c (owned.foldl (releaseOne w reason) s)

/-! ## Ending a session -/

/-- Free one dropped knock and say so. -/
def dropKnock (nowMs : UInt32) (s : Sys ε) (k : PendingKnock) : Sys ε :=
  let s := emitPairingEvent w c PairingEventKinds.expired k.instanceId.val k.name.data k.mode .watch [] nowMs s
  setPairing { s.hub.pairing with pending := s.hub.pairing.pending.drop (· == k) } s

/-- The knocks of a session go with it. -/
def dropKnocksOf (sid nowMs : UInt32) (s : Sys ε) : Sys ε :=
  let dropped := s.hub.pairing.pending.select (PendingPairingList.ofSession sid)
  if dropped.isEmpty then s
  else publishPendingPairingState c nowMs (dropped.foldl (dropKnock w c nowMs) s)

/-- The per-session extras of a slot. -/
def resetSlot (sl : Slot) : Slot :=
  { sl with
    session := {}
    pushRecords := List.replicate Limits.maxSubscriptionsPerSession {}
    conflictNacks := List.replicate kMaxSources none
    clientNonce := none, sigRequested := false, signPending := false, signDelivered := false
    authFailures := 0, blob := none }

/-- `reason` 4 is a session loss. -/
def teardownSession (i : SlotIdx) (nowMs : UInt32) (s : Sys ε) : Sys ε :=
  let sid := (s.session i).sessionId
  let s :=
    if (s.session i).occupied then
      notify w (.onSessionLeft sid) (dropKnocksOf w c sid nowMs (releaseSessionSources w c sid 4 s))
    else s
  (s.log (.seated i none)).modSlot i resetSlot

/-- Silence suspends a session: its sources are released, everything else is kept. -/
def markStale (i : SlotIdx) (nowMs : UInt32) (reason : UInt8) (s : Sys ε) : Sys ε :=
  let sid := (s.session i).sessionId
  let s := releaseSessionSources w c sid reason s
  let s := s.modSession i fun se => { se with state := .stale, staleSinceMs := nowMs }
  emitSessionEvent w SessionEventKinds.sessionStale sid nowMs s

/-- Any frame is proof of life. -/
def reviveIfStale (i : SlotIdx) (nowMs : UInt32) (s : Sys ε) : Sys ε :=
  if (s.session i).state = .stale then
    let s := s.modSession i fun se => { se with state := .live, staleSinceMs := 0 }
    emitSessionEvent w SessionEventKinds.sessionResumed (s.session i).sessionId nowMs s
  else s

/-- The extras that do not survive a park. -/
def parkExtras (sl : Slot) : Slot :=
  { sl with clientNonce := none, sigRequested := false, signPending := false, signDelivered := false
            authFailures := 0, blob := none }

/-- Close the slot's transport, if there is one. -/
def closeSlot (i : SlotIdx) (s : Sys ε) : Sys ε :=
  match (s.slot i).transport with
  | none => s
  | some t =>
    let s : Sys ε := { s.log (.closed t) with env := w.closeTransport t s.env }
    s.modSlot i fun sl => { sl with transport := none }

/-- A transfer does not outlive the link. -/
def dropBlob (i : SlotIdx) (s : Sys ε) : Sys ε :=
  if (s.slot i).blob.isSome then s.log (.blob i (.ended .dropped)) else s

@[simp] theorem dropBlob_hub (i : SlotIdx) (s : Sys ε) : (dropBlob i s).hub = s.hub := by
  unfold dropBlob
  split <;> rfl

/-- Keep the session as a stale one and let go of the transport. -/
def parkAndDetach (i : SlotIdx) (nowMs : UInt32) (s : Sys ε) : Sys ε :=
  let s :=
    if (s.session i).occupied && (s.session i).state != .stale then
      let s := markStale w c i nowMs 4 s
      let s := dropKnocksOf w c (s.session i).sessionId nowMs s
      (dropBlob i s).modSlot i parkExtras
    else s
  let s := closeSlot w i s
  s.modSlot i fun sl => { sl with congestionLevel := 0, criticalStallSince := none }

/-! ## Tracked sends -/

/-- A never-shed send that keeps failing on a stalled link parks the session. -/
def trackCriticalSend (i : SlotIdx) (ok : Bool) (nowMs : UInt32) (s : Sys ε) : Sys ε :=
  let sl := s.slot i
  if sl.congestionLevel < 2 || ok then s.modSlot i fun sl => { sl with criticalStallSince := none }
  else match sl.criticalStallSince with
    | none => s.modSlot i fun sl => { sl with criticalStallSince := some nowMs }
    | some since =>
      if timeReached nowMs (since + Limits.neverShedStallEvictionMs) then parkAndDetach w c i nowMs s else s

def sendFrameToTracked (i : SlotIdx) (type : FrameType) (ch : UInt16) (payload : Bytes) (nowMs : UInt32)
    (seq : UInt16) (s : Sys ε) : Bool × Sys ε :=
  if (s.slot i).transport.isNone then (false, s)
  else
    let (ok, s) := sendFrameTo w i type ch payload seq s
    (ok, trackCriticalSend w c i ok nowMs s)

def sendNackTracked (i : SlotIdx) (n : NackMsg) (nowMs : UInt32) (s : Sys ε) : Sys ε :=
  if (s.slot i).transport.isNone then s
  else match encodeNack (stampNack s.hub n) 128 with
    | none => trackCriticalSend w c i false nowMs s
    | some bytes =>
      let (ok, s) := sendFrameTo w i .nack 0 bytes 0 s
      trackCriticalSend w c i ok nowMs s

/-- Send an encoded message, if it encoded. -/
def sendEncodedTracked (i : SlotIdx) (type : FrameType) (payload : Option Bytes) (nowMs : UInt32) (s : Sys ε) :
    Sys ε :=
  match payload with
  | none => s
  | some bytes => (sendFrameToTracked w c i type 0 bytes nowMs 0 s).2

/-! ## Slot pressure -/

/-- The lowest access tier goes first, then the one stale for longest. -/
def betterVictim (h : Hub) (best j : SlotIdx) : Bool :=
  let s := (h.slots j).session
  let b := (h.slots best).session
  decide (s.role < b.role) || (s.role == b.role && decide (timeDelta s.staleSinceMs b.staleSinceMs < 0))

def pickVictim (h : Hub) (exclude : Option SlotIdx) (best : Option SlotIdx) (j : SlotIdx) : Option SlotIdx :=
  if exclude = some j then best
  else if (h.slots j).session.state ≠ .stale then best
  else match best with
    | none => some j
    | some b => if betterVictim h b j then some j else some b

/-- Only a stale session can be chosen. -/
def findEvictableStale (h : Hub) (exclude : Option SlotIdx) : Option SlotIdx :=
  allSlots.foldl (pickVictim h exclude) none

/-! ## Liveness pumps -/

/-- The session owns one of the source ids 0 to 3. -/
def ownsLow (h : Hub) (sid : UInt32) : Bool :=
  ([0, 1, 2, 3] : List UInt8).any fun src => h.ownership.ownerOf src == sid

def pumpDeadman (i : SlotIdx) (nowMs : UInt32) (s : Sys ε) : Sys ε :=
  let se := s.session i
  if se.state ≠ .live then s
  else if !ownsLow s.hub se.sessionId then s
  else if !timeReached nowMs (se.lastRxMs + se.deadmanMs) then s
  else markStale w c i nowMs 3 s

def kIdleReapMs : UInt32 := Limits.idleReapMultiplier * Limits.pingIntervalIdleMs

def pumpIdleReap (i : SlotIdx) (nowMs : UInt32) (s : Sys ε) : Sys ε :=
  let se := s.session i
  if se.state ≠ .live then s
  else if ownsLow s.hub se.sessionId then s
  else if !timeReached nowMs (se.lastRxMs + kIdleReapMs) then s
  else markStale w c i nowMs 4 s

/-- A session that never finishes adopting the catalog is ended. -/
def pumpReadyTimeout (i : SlotIdx) (nowMs : UInt32) (s : Sys ε) : Sys ε :=
  let se := s.session i
  if se.state = .stale then s
  else if se.ready then s
  else if !timeReached nowMs (se.grantedAtMs + Limits.catalogReadyTimeoutMs) then s
  else teardownSession w c i nowMs (sendGoodbye w i .readyTimeout s)

/-! ## Transports -/

/-- The hub's millisecond reading of the clock, as the host-facing calls take it. -/
def clockMs (s : Sys ε) : UInt32 := w.nowUs s.env / 1000

/-- Open the transport and put it in the slot. -/
def openInto (i : SlotIdx) (t : TransportId) (s : Sys ε) : Sys ε :=
  let (ok, env) := w.openTransport t s.env
  let s : Sys ε := { s.log (.opened t ok) with env }
  if ok then s.modSlot i fun sl => { sl with transport := some t } else s

/-- The first slot with neither a transport nor a session. -/
def freeSlot (h : Hub) : Option SlotIdx :=
  allSlots.find? fun i => (h.slots i).transport.isNone && !(h.slots i).session.occupied

def attachTransport (t : TransportId) (s : Sys ε) : Sys ε :=
  match freeSlot s.hub with
  | some i => openInto w i t s
  | none =>
    match findEvictableStale s.hub none with
    | none => s
    | some v => openInto w v t (teardownSession w c v (clockMs w s) (closeSlot w v s))

def attachedSlotFor (h : Hub) (t : TransportId) : Option SlotIdx :=
  allSlots.find? fun i => (h.slots i).transport == some t

def detachTransport (t : TransportId) (s : Sys ε) : Sys ε :=
  match attachedSlotFor s.hub t with
  | none => s
  | some i => parkAndDetach w c i (clockMs w s) s

end

end SlopSync
