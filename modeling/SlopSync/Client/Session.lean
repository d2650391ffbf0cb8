import SlopSync.Client.Send

/-! # The session of a client

`connect`, `disconnect` and the frame handlers of `client/client_impl.hpp`. -/

namespace SlopSync

namespace Client

section

variable {ε : Type} (w : World ε)

/-! ## connect -/

/-- What `connect` forgets once the transport is open. -/
def resetSession (c : Client) : Client :=
  { c with
    sessionId := 0
    cfgGen := 0
    grants := {}
    shadows := {}
    requiredRetained := 0
    adoptedCount := 0
    catalogReady := true
    chunkReassembler := {}
    catalogChunkCount := 0
    readyPending := false
    readyAttempts := 0
    estopActive := false
    estopSendFailed := false
    holdingSource := false
    hubAuth := .notRequested
    sigDeadlineMs := 0 }

/-- The `trust` sub-map, if the client asked for anything. -/
def helloTrust (c : Client) : Option TrustMap :=
  if c.clientVer.isSome || c.presentationMode != 0 || c.sigRequested then
    some {
      clientVer := c.clientVer
      presentationMode := if c.presentationMode = 0 then none else some c.presentationMode
      clientNonce := if c.sigRequested then some c.clientNonce else none
      sigRequest := if c.sigRequested then some true else none }
  else none

/-- In proof mode the token stays at home. -/
def hello (c : Client) : HelloMsg :=
  { clientKind := c.id.clientKind
    clientName := c.id.clientName
    instanceId := c.id.instanceId
    token := if c.presentationMode = 1 then none else c.id.token
    catalogEtag := if c.cachedEtag = ByteArr.zero 8 then none else some c.cachedEtag
    subscriptions := c.wishes.map wishOf
    trust := helloTrust c }

/-- A fresh nonce for every connection; without a pinned key there is nothing to check an answer against. -/
def requestSignature (s : Sys ε) : Sys ε :=
  if !s.client.sigRequested then s
  else
    let (clientNonce, env) := w.fill 8 s.env
    let s : Sys ε := { s with client := { s.client with clientNonce }, env }
    setHubAuth w (if s.client.hubPubkey = [] then .unverifiable else .pending) s

/-- The clock of the signature starts when the request has left. -/
def armSigDeadline (s : Sys ε) : Sys ε :=
  if s.client.hubAuth = .pending then
    s.modify fun c => { c with sigDeadlineMs := clockMs w s + Limits.hubSigTimeoutMs }
  else s

/-- Send HELLO on an open transport. -/
def sendHello (s : Sys ε) : Bool × Sys ε :=
  match encodeHello w.f32Bits (hello s.client) 700 with
  | none => (false, s)
  | some bytes =>
    let (ok, s) := sendFrame w .hello 0 bytes s
    if !ok then (false, s) else (true, setState w .helloSent (armSigDeadline w s))

/-- Nothing is forgotten when the transport does not open. -/
def connect (s : Sys ε) : Bool × Sys ε :=
  let s := flushPending w (s.log .connect)
  let (ok, env) := w.openTransport s.env
  let s : Sys ε := { s.log (.opened ok) with env }
  if !ok then (false, s) else sendHello w (requestSignature w (s.modify resetSession))

/-- A best-effort GOODBYE. -/
def sendGoodbye (s : Sys ε) : Sys ε :=
  if s.client.state = .closed then s
  else match encodeGoodbye { code := .normalClosure } 64 with
    | none => s
    | some bytes => (sendFrame w .goodbye 0 bytes s).2

def disconnect (s : Sys ε) : Sys ε :=
  let s := flushPending w (sendGoodbye w s)
  setState w .closed { s.log .closed with env := w.closeTransport s.env }

/-! ## WELCOME -/

/-- What a WELCOME says about the session. -/
def adoptWelcome (m : WelcomeMsg) (c : Client) : Client :=
  { c with
    sessionId := m.sessionId
    bootId := m.bootId
    cfgGen := m.cfgGen
    roles := m.roles
    hubEtag := m.catalogEtag
    nonce := m.nonce
    grants := ⟨m.grants, m.bound⟩
    shadows := {}
    requiredRetained := m.retainedPending
    adoptedCount := 0 }

/-- The catalog is at hand, or it is asked for. -/
def bootstrapCatalog (s : Sys ε) : Sys ε :=
  if s.client.cachedEtag = s.client.hubEtag then s.modify fun c => { c with catalogReady := true }
  else sendBlobReq w (s.modify fun c =>
    { c with catalogReady := false, chunkReassembler := {}, catalogChunkCount := 0 })

def presentProof (s : Sys ε) : Sys ε := if s.client.presentationMode = 1 then sendAuthProof w s else s

/-- Only the first WELCOME of a connection counts. -/
def handleWelcome (msg : Option WelcomeMsg) (s : Sys ε) : Sys ε :=
  match msg with
  | none => s
  | some m =>
    if s.client.state ≠ .helloSent then s
    else
      let s := bootstrapCatalog w ((s.log (.welcomed m)).modify (adoptWelcome m))
      let s := match m.welcomeSig with
        | none => s
        | some sig => adoptHubSignature w sig s
      checkLiveTransition w (setState w .syncing (presentProof w s))

/-! ## STATE -/

/-- The latch the client waits for: the ESTOP bit, with its own sequence number or a newer one. -/
def estopReached (payload : Bytes) (sent : UInt16) : Bool :=
  let estopSeq := getU16 (payload.drop 6)
  payload.getD 0 0 &&& 1 != 0 && (estopSeq == sent || seqIsNewer estopSeq sent)

/-- A snapshot of the safety channel may end the repetition of an ESTOP. -/
def observeLatch (ch : UInt16) (payload : Bytes) (c : Client) : Client :=
  if ch = Channels.safety ∧ c.estopActive = true ∧ 8 ≤ payload.length ∧ estopReached payload c.estopSentSeq = true then
    { c with estopActive := false, estopSendFailed := false }
  else c

/-- A channel that had no value yet counts towards LIVE. -/
def countAdopted (wasValid : Bool) (s : Sys ε) : Sys ε :=
  if s.client.state = .syncing ∧ wasValid = false then
    checkLiveTransition w (s.modify fun c => { c with adoptedCount := c.adoptedCount + 1 })
  else s

/-- Newest wins; what is stale is not even looked at for the latch. -/
def handleState (ch seq : UInt16) (payload : Bytes) (s : Sys ε) : Sys ε :=
  match s.client.shadows.findOrCreateShadow ch with
  | none => s
  | some (e, shadows) =>
    let (accepted, slot) := applyStateFrame seq payload e.slot
    let s := s.modify fun c => { c with shadows := shadows.update ch slot, readyPending := false }
    if !accepted then s
    else (countAdopted w e.slot.valid (notify w (.onState ch seq payload) s)).modify (observeLatch ch payload)

/-! ## Answers -/

def handleEcho (msg : Option EchoMsg) (s : Sys ε) : Sys ε :=
  match msg with
  | none => s
  | some m =>
    if m.intentId ∉ s.client.pending then s
    else
      notify w (.onEcho m.intentId m.applied m.cfgGen) (s.modify fun c => { c with
        pending := c.pending.erase m.intentId
        cfgGen := m.cfgGen
        holdingSource := true })

/-- A NACK in the handshake ends it. -/
def handleNack (msg : Option NackMsg) (s : Sys ε) : Sys ε :=
  match msg with
  | none => s
  | some m =>
    let s := if s.client.state = .helloSent then setState w .closed s else s
    let s := match m.intentId with
      | none => s
      | some id => s.modify fun c => { c with pending := c.pending.erase id }
    notify w (.onNack m) s

/-- The roles were issued again; more rights are used at once. -/
def adoptRoles (roles : AccessLevel) (s : Sys ε) : Sys ε :=
  let before := s.client.roles
  let s := s.modify fun c => { c with roles := roles.code }
  if s.client.roles = before then s
  else
    let s := if before < s.client.roles then resendSubscriptionWishes w s else s
    notify w (.onRolesChanged s.client.roles) s

def handleGrant (msg : Option GrantMsg) (s : Sys ε) : Sys ε :=
  match msg with
  | none => s
  | some m =>
    let s := s.modify fun c => { c with grants := m.grants.foldl GrantTable.grant c.grants }
    match m.roles with
    | none => s
    | some roles => adoptRoles w roles s

/-! ## The catalog -/

/-- The whole catalog is there: check it, declare it. -/
def adoptCatalog (s : Sys ε) : Sys ε :=
  let digest := (Sha256.hash s.client.chunkReassembler.assembled).take kCatalogReadyBytes
  let matches_ := digest == s.client.hubEtag.val
  let s := (s.log .assembled).modify fun c => { c with
    cachedEtag := if matches_ then c.hubEtag else c.cachedEtag
    catalogReady := true }
  checkLiveTransition w (sendCatalogReady w (if matches_ then s.client.hubEtag.val else digest) s)

/-- The transfer a chunk belongs to is begun, or begun again when the count has changed. -/
def beginTransfer (h : BlobChunkHeader) (nowMs : UInt32) (c : Client) : Client :=
  if !c.chunkReassembler.active || c.catalogChunkCount != h.chunkCount then
    { c with chunkReassembler := c.chunkReassembler.begin h nowMs, catalogChunkCount := h.chunkCount }
  else c

def insertChunk (payload : Bytes) (nowMs : UInt32) (s : Sys ε) : Sys ε :=
  let s := match s.client.chunkReassembler.accepts payload with
    | none => s
    | some h => s.log (.chunk h.chunkCount h.chunkIndex)
  s.modify fun c => { c with chunkReassembler := c.chunkReassembler.insert payload nowMs }

/-- Only the catalog is transferred here. -/
def handleBlobChunk (payload : Bytes) (nowMs : UInt32) (s : Sys ε) : Sys ε :=
  match getBlobChunkHeader payload with
  | none => s
  | some h =>
    if !h.id.isCatalog then s
    else if h.chunkCount = 0 ∨ h.chunkCount ≤ h.chunkIndex then s
    else
      let s := insertChunk payload nowMs (s.modify (beginTransfer h nowMs))
      if s.client.chunkReassembler.complete then adoptCatalog w s else s

/-! ## The rest -/

/-- The payload comes back, unless it is too long. -/
def handlePing (payload : Bytes) (s : Sys ε) : Sys ε :=
  (sendFrame w .pong 0 (if 32 < payload.length then [] else payload) s).2

/-- The hub's key arrives with the grant and is pinned. -/
def handlePairGrant (msg : Option PairGrantMsg) (s : Sys ε) : Sys ε :=
  match msg with
  | none => s
  | some m =>
    let s := match m.hubPubkey with
      | none => s
      | some key => notify w (.onHubPublicKey key.val) (setHubPublicKey key.val s)
    notify w (.onPairGrant m.token m.roles) s

def handleHubSig (sig : Option TrustBytes) (s : Sys ε) : Sys ε :=
  match sig with
  | none => s
  | some sig => adoptHubSignature w sig s

/-- A frame of the burst is counted, with the highest index. -/
def handleProbeFrame (payload : Bytes) (s : Sys ε) : Sys ε :=
  if !s.client.probeActive then s
  else if payload.length < 2 then s
  else
    let index := getU16 payload
    s.modify fun c => { c with
      probeFramesReceived := c.probeFramesReceived + 1
      probeBytesReceived := c.probeBytesReceived + UInt32.ofNat payload.length
      probeMaxIndexSeen := match c.probeMaxIndexSeen with
        | none => some index
        | some top => some (if top < index then index else top) }

def handleGoodbye (s : Sys ε) : Sys ε := flushPending w (setState w .closed s)

/-! ## Frame dispatch -/

def dispatch (m : Inbound) (nowMs : UInt32) (s : Sys ε) : Sys ε :=
  match m with
  | .welcome m => handleWelcome w m s
  | .state ch seq payload => handleState w ch seq payload s
  | .echo m => handleEcho w m s
  | .nack m => handleNack w m s
  | .grant m => handleGrant w m s
  | .event ch payload => notify w (.onEvent ch payload) s
  | .blobChunk payload => handleBlobChunk w payload nowMs s
  | .ping payload => handlePing w payload s
  | .pairGrant m => handlePairGrant w m s
  | .hubSig sig => handleHubSig w sig s
  | .probe payload => handleProbeFrame payload s
  | .goodbye => handleGoodbye w s
  | .other => s

/-- An ESTOP is proof of life only: the client acts on the safety channel. -/
def handleFrame (nowMs : UInt32) (s : Sys ε) (rx : RxFrame) : Sys ε :=
  let s := s.log (.rx rx)
  match rx with
  | .badEstop | .short => s
  | .estop => s.modify fun c => { c with lastRxMs := nowMs }
  | .frame m => dispatch w m nowMs (s.modify fun c => { c with lastRxMs := nowMs })

end

end Client

end SlopSync
