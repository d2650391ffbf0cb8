import SlopSync.Hub.Grants
import SlopSync.Hub.Pairing

/-! # Admission

HELLO: duplicate instances, slot pressure, the role of the new session, its grants and the WELCOME.  A HELLO
of a stale session's instance moves that session to the new slot instead (`handleReattach`). -/

namespace SlopSync

section

variable {ε : Type} (w : World ε) (c : Config)

/-- Sessions in use in the other slots. -/
def occupiedCount (h : Hub) (exclude : SlotIdx) : Nat :=
  (allSlots.filter fun j => j ≠ exclude ∧ (h.slots j).session.occupied = true).length

def findSlotByInstance (h : Hub) (inst : InstanceId) (exclude : SlotIdx) : Option SlotIdx :=
  allSlots.find? fun j => decide (j ≠ exclude) && (h.slots j).session.occupied &&
    (h.slots j).session.instanceId == inst

/-! ## The role of a HELLO -/

def ledgerRole (p : PairingManager) (h : HelloMsg) : AccessLevel :=
  match h.token with
  | none => .watch
  | some t => p.validate h.instanceId t

/-- The ledger is asked first; the delegate may raise what the ledger left at `watch`. -/
def validateHello (h : HelloMsg) (s : Sys ε) : AccessLevel × Sys ε :=
  let role := ledgerRole s.hub.pairing h
  if role = .watch then
    let (role, env) := w.validateToken h.instanceId h.token s.env
    (role, { s.log (.validateToken h.instanceId h.token role) with env })
  else (role, s)

/-- A HELLO that carries a token goes through the change tripwire, whose answer is the role. -/
def observeRole (i : SlotIdx) (h : HelloMsg) (nowMs : UInt32) (s : Sys ε) : Sys ε :=
  if h.token.isSome then
    let (role, s) := applyTrustObservation w c i nowMs s
    setRole i role s
  else s

/-! ## WELCOME -/

def retainedPending (h : Hub) (grants : List Grant) : Nat :=
  (grants.filter fun g => (c.catalog.find g.channelId).any (fun e => e.cls == .state) &&
    (h.retained.get g.channelId).isSome).length

/-- What the slot's session is told. -/
def buildWelcome (i : SlotIdx) (grants : List Grant) (grantedPublishes : List GrantedPublish) (nowMs : UInt32)
    (h : Hub) : WelcomeMsg :=
  let se := (h.slots i).session
  let offered := h.pairing.offeredModes nowMs
  { sessionId := se.sessionId, bootId := h.bootId, catalogEtag := c.etag, cfgGen := h.cfgGen
    limits :=
      { maxFrame := match (h.slots i).transport with
          | none => kFrameBufferCapacity
          | some t => min (w.mtu t) kFrameBufferCapacity
        maxSubscriptions := Limits.maxSubscriptionsPerSession
        retainedPending := retainedPending c h grants
        maxSubscriptionsPerFrame := Limits.maxSubscriptionsPerFrame }
    roles := se.role, deadmanMs := se.deadmanMs, deadmanPolicy := 0, nonce := (h.slots i).nonce, grants, grantedPublishes
    identity := some h.identity, wsPort := h.wsPort, ipv4 := h.ipv4
    trust := if offered = 0 then none else some { pairingModes := some offered } }

/-- Sign inline, or ask for a job to be armed once WELCOME is out. -/
def armWelcomeSignature (i : SlotIdx) (m : WelcomeMsg) (s : Sys ε) : (Bool × WelcomeMsg) × Sys ε :=
  match (s.slot i).sigRequested, (s.slot i).clientNonce with
  | true, some nonce =>
    if !s.hub.inlineSigning then ((true, m), s)
    else
      let (sig, env) := w.signP256 (hubSigMaterial nonce (s.session i).sessionId s.hub.bootId) s.env
      let s : Sys ε := { s with env }
      if 0 < sig.length && sig.length ≤ 72 then
        ((false, { m with trust := some { m.trust.getD {} with welcomeSig := some sig } }),
          s.modSlot i fun sl => { sl with signDelivered := true })
      else ((false, m), s)
  | _, _ => ((false, m), s)

/-- Each WELCOME challenges the client anew. -/
def freshNonce (i : SlotIdx) (s : Sys ε) : Sys ε :=
  let (nonce, env) := w.fill 8 s.env
  let s : Sys ε := { s with env }
  s.modSlot i fun sl => { sl with nonce }

/-- Send the WELCOME; the answer says whether it went out. -/
def sendWelcome (i : SlotIdx) (grants : List Grant) (pubs : List GrantedPublish) (nowMs : UInt32) (s : Sys ε) :
    Bool × Sys ε :=
  let s := freshNonce w i s
  let m := buildWelcome w c i grants pubs nowMs s.hub
  let ((arm, m), s) := armWelcomeSignature w i m s
  match encodeWelcome w.f32Bits m 700 with
  | none => (false, s)
  | some bytes =>
    let (ok, s) := sendFrameTo w i .welcome 0 bytes 0 s
    (ok, if ok && arm then s.modSlot i fun sl => { sl with signPending := true } else s)

/-! ## A fresh session -/

/-- The deadman window asked for, cut to the allowed range. -/
def appliedDeadman (wish : UInt32) : UInt32 :=
  if wish = 0 then Limits.deadmanDefaultMs
  else if wish < Limits.deadmanMinMs then Limits.deadmanMinMs
  else if Limits.deadmanMaxMs < wish then Limits.deadmanMaxMs
  else wish

def etagMatches (h : HelloMsg) : Bool := h.catalogEtag == some c.etag

/-- How the client introduced itself. -/
def introduce (h : HelloMsg) (se : HubSession) : HubSession :=
  let ver := h.trust.bind TrustMap.clientVer
  { se with
    clientKind := .assign h.clientKind, clientName := .assign h.clientName
    hasClientVer := ver.isSome
    clientVer := match ver with
      | none => se.clientVer
      | some v => .assign v
    presentationMode := (h.trust.bind TrustMap.presentationMode).getD 0 }

def freshSession (h : HelloMsg) (sid : UInt32) (role : AccessLevel) (nowMs : UInt32) : HubSession :=
  introduce h
    { state := .validating, sessionId := sid, instanceId := h.instanceId, role
      ready := etagMatches c h, grantedAtMs := nowMs, lastRxMs := nowMs
      deadmanMs := appliedDeadman h.deadmanWishMs }

/-- The client's own nonce and whether it asked for a signature. -/
def introduceSlot (h : HelloMsg) (sl : Slot) : Slot :=
  { sl with clientNonce := h.trust.bind TrustMap.clientNonce
            sigRequested := (h.trust.bind TrustMap.sigRequest).getD false }

/-- Draw a session id. -/
def drawSession (s : Sys ε) : UInt32 × Sys ε :=
  let (sid, env) := drawNonZero w.nextU32 w.drawFuel s.env
  (sid, { s.log (.drewSession sid) with env })

/-- Fill the slot with the new session. -/
def openSession (i : SlotIdx) (h : HelloMsg) (nowMs : UInt32) (s : Sys ε) : Sys ε :=
  let (sid, s) := drawSession w s
  let (role, s) := validateHello w h s
  s.modSlot i fun sl => introduceSlot h { sl with session := freshSession c h sid role nowMs }

/-- The new session with its role settled. -/
def admitSession (i : SlotIdx) (h : HelloMsg) (nowMs : UInt32) (s : Sys ε) : Sys ε :=
  observeRole w c i h nowMs (openSession w c i h nowMs s)

def helloSubscribeOne (i : SlotIdx) (acc : List Grant × Sys ε) (wish : SubscriptionWish) : List Grant × Sys ε :=
  match trySubscribe c i wish acc.2 with
  | (.error _, s) => (acc.1, s)
  | (.ok g, s) => (if acc.1.length < kWelcomeMaxGrants then acc.1 ++ [g] else acc.1, s)

/-- Grant the wishes and answer.  The session goes live only once its WELCOME was written. -/
def welcomeSession (i : SlotIdx) (h : HelloMsg) (nowMs : UInt32) (s : Sys ε) : Sys ε :=
  let (grants, s) := h.subscriptions.foldl (helloSubscribeOne c i) ([], s)
  let (pubs, s) := h.publishes.foldl (publishOne w c i nowMs) ([], s)
  let (ok, s) := sendWelcome w c i grants pubs nowMs s
  if ok then
    let s := s.modSession i fun se => { se with state := .live }
    notify w (.onSessionJoined (s.session i).sessionId) s
  else s

/-! ## Reattach -/

/-- The stale session moves to slot `i`; the extras of a link do not. -/
def migrateInto (from_ : Slot) (sl : Slot) : Slot :=
  { sl with
    session := from_.session, pushRecords := from_.pushRecords, conflictNacks := from_.conflictNacks
    clientNonce := none, sigRequested := false, signPending := false, signDelivered := false, authFailures := 0
    congestionLevel := 0, criticalStallSince := none, lastProbeReport := none, blob := none }

/-- What is left behind. -/
def vacate (sl : Slot) : Slot :=
  { sl with
    session := {}, pushRecords := List.replicate Limits.maxSubscriptionsPerSession {}
    conflictNacks := List.replicate kMaxSources none, clientNonce := none, blob := none }

/-- Move the session of slot `j` to slot `i`. -/
def migrate (i j : SlotIdx) (s : Sys ε) : Sys ε :=
  { s.log (.seated i (some j)) with
    hub := { s.hub with slots := fun k =>
      if k = i then migrateInto (s.hub.slots j) (s.hub.slots i)
      else if k = j then vacate (s.hub.slots j) else s.hub.slots k } }

/-- The stale session is back, as the client introduces itself now. -/
def reintroduce (h : HelloMsg) (role : AccessLevel) (sl : Slot) : Slot :=
  introduceSlot h { sl with session := introduce h { sl.session with role } }

/-- The session after a resumption: only a matching etag keeps it ready. -/
def resumeSession (h : HelloMsg) (nowMs : UInt32) (se : HubSession) : HubSession :=
  let se := { se with staleSinceMs := 0, lastRxMs := nowMs }
  if etagMatches c h then se
  else { se with ready := false, readyEtagMismatch := h.catalogEtag.isSome, grantedAtMs := nowMs }

def grantOf (e : SubscriptionEntry) : Grant :=
  { channelId := e.channelId, grantedRateHz := e.grantedRateHz, priority := e.priority }

def grantedPublishOf (g : PublishGrant) : GrantedPublish :=
  { channelId := g.channelId, grantedRateHz := g.grantedRateHz
    burst := if g.burstRequested then some g.grantedBurst else none
    curveFamily := if g.curveFamily = 0 then none else some g.curveFamily }

/-- Every subscription is pushed afresh. -/
def rearmPushes (t : SubscriptionTable) : SubscriptionTable where
  entries := t.entries.map fun e => { e with everPushed := false }
  fits := by simpa using t.fits

/-- The stale session of slot `j` is moved to slot `i`, whose own session ends. -/
def takeOver (i j : SlotIdx) (nowMs : UInt32) (s : Sys ε) : Sys ε :=
  migrate i j (closeSlot w j (teardownSession w c i nowMs s))

/-- The role is derived anew, as for any HELLO.  While the tripwire tells everyone of a suspension, the session is as
ready as it was before it went stale: queued events go out on the new link. -/
def resume (i : SlotIdx) (h : HelloMsg) (nowMs : UInt32) (s : Sys ε) : Sys ε :=
  let (role, s) := validateHello w h s
  (observeRole w c i h nowMs (s.modSlot i (reintroduce h role))).modSession i (resumeSession c h nowMs)

/-- The WELCOME repeats the retained grants. -/
def welcomeBack (i : SlotIdx) (nowMs : UInt32) (s : Sys ε) : Sys ε :=
  let s := s.modSession i fun se => { se with subs := rearmPushes se.subs }
  let se := s.session i
  let (ok, s) := sendWelcome w c i ((se.subs.entries.map grantOf).take kWelcomeMaxGrants)
    ((se.publishGrants.grants.map grantedPublishOf).take kWelcomeMaxGrantedPublishes) nowMs s
  if ok then
    let s := s.modSession i fun se => { se with state := .live }
    emitSessionEvent w SessionEventKinds.sessionResumed (s.session i).sessionId nowMs s
  else s

/-- `j` holds the stale session of the HELLO's instance: it continues in slot `i` with its grants. -/
def handleReattach (i j : SlotIdx) (h : HelloMsg) (nowMs : UInt32) (s : Sys ε) : Sys ε :=
  welcomeBack w c i nowMs (resume w c i h nowMs (takeOver w c i j nowMs s))

/-! ## HELLO -/

/-- Make room: a stale session yields its slot, a live one never does. -/
def makeRoom (i : SlotIdx) (nowMs : UInt32) (s : Sys ε) : Option (Sys ε) :=
  if occupiedCount s.hub i < kHubMaxSessions then some s
  else match findEvictableStale s.hub (some i) with
    | none => none
    | some v => some (teardownSession w c v nowMs (sendGoodbye w v .slotReclaimed s))

/-- No stale session of this instance: admit a new one. -/
def helloFresh (i : SlotIdx) (h : HelloMsg) (nowMs : UInt32) (s : Sys ε) : Sys ε :=
  match makeRoom w c i nowMs s with
  | none => sendNack w i { code := .busy, retryAfterMs := some Limits.busyRetryAfterDefaultMs } s
  | some s => welcomeSession w c i h nowMs (admitSession w c i h nowMs (teardownSession w c i nowMs s))

def handleHello (i : SlotIdx) (msg : Option HelloMsg) (nowMs : UInt32) (s : Sys ε) : Sys ε :=
  match msg with
  | none => sendNack w i { code := .malformed } s
  | some h =>
    match findSlotByInstance s.hub h.instanceId i with
    | none => helloFresh w c i h nowMs s
    | some j =>
      if (s.session j).state = .stale then handleReattach w c i j h nowMs s
      else
        helloFresh w c i h nowMs (teardownSession w c j nowMs (sendGoodbye w j .duplicateInstance s))

end

end SlopSync
