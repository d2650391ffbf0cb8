import SlopSync.Client.State

/-! # Sending, and what the client tells its application

The helpers of `client/client_impl.hpp`: `sendFrame`, `setState`, `flushPending`, the requests for a catalog, and the
trust state. -/

namespace SlopSync

namespace Client

section

variable {ε : Type} (w : World ε)

/-- `IClock::nowMs()`: a quotient of the wrapping clock. -/
def clockMs (s : Sys ε) : UInt32 := w.nowUs s.env / 1000

/-- Tell the delegate. -/
def notify (n : Note) (s : Sys ε) : Sys ε := { s.log (.note n) with env := w.notify n s.env }

def setState (st : ClientSessionState) (s : Sys ε) : Sys ε :=
  notify w (.onStateChange st) (s.modify fun c => { c with state := st })

/-- Write one frame; a write that the transport took is stamped. -/
def sendFrame (type : FrameType) (ch : UInt16) (payload : Bytes) (s : Sys ε) : Bool × Sys ε :=
  match encodeFrame type ch 0 payload with
  | none => (false, s)
  | some bytes =>
    let (ok, env) := w.write bytes s.env
    let s := { s.log (.write type ch payload ok) with env }
    (ok, if ok then s.modify fun c => { c with lastTxMs := clockMs w s } else s)

/-- Write an ESTOP frame; nobody asks whether the transport took it. -/
def writeEstop (f : EstopFrame) (s : Sys ε) : Sys ε :=
  let (ok, env) := w.write (encodeEstop f) s.env
  { s.log (.writeEstop f ok) with env }

/-- The intents that wait for an answer die. -/
def flushPending (s : Sys ε) : Sys ε :=
  (s.client.pending.foldl (fun s id => notify w (.onPendingDropped id) s) s).modify fun c => { c with pending := [] }

def checkLiveTransition (s : Sys ε) : Sys ε :=
  if s.client.state = .syncing ∧ s.client.catalogReady = true ∧ s.client.requiredRetained ≤ s.client.adoptedCount then
    setState w .live s
  else s

/-! ## The catalog -/

/-- Ask for the whole catalog: an empty map. -/
def sendBlobReq (s : Sys ε) : Sys ε :=
  match (({ cap := 16 } : CborWriter).mapHeader 0).result with
  | none => s
  | some bytes =>
    let (ok, s) := sendFrame w .blobReq 0 bytes s
    if ok then s.modify fun c => { c with catalogReqSentCount := c.catalogReqSentCount + 1 } else s

def kCatalogReadyBytes : Nat := 8

def encodeCatalogReady (etag : Bytes) : Option Bytes := if etag.length = kCatalogReadyBytes then some etag else none

/-- Declare which catalog the client operates against. -/
def sendCatalogReady (etag : Bytes) (s : Sys ε) : Sys ε :=
  match encodeCatalogReady etag with
  | none => s
  | some bytes =>
    let (ok, s) := sendFrame w .catalogReady 0 bytes (s.modify fun c => { c with readyEtag := bytes })
    if ok then
      s.modify fun c => { c with
        readyPending := true
        lastReadySendMs := clockMs w s
        readyAttempts := c.readyAttempts + 1 }
    else s

/-! ## Trust -/

def setHubAuth (st : HubAuthState) (s : Sys ε) : Sys ε :=
  if s.client.hubAuth = st then s
  else notify w (.onHubAuth st) (s.modify fun c => { c with hubAuth := st })

def kTrustPubkeyMaxBytes : Nat := 33

/-- Pin the hub's key; no bytes or too many of them un-pin it. -/
def setHubPublicKey (key : Bytes) (s : Sys ε) : Sys ε :=
  s.modify fun c => { c with hubPubkey := if kTrustPubkeyMaxBytes < key.length then [] else key }

/-- The verdict on a signature of this connection's material. -/
def verdict (c : Client) (sig : Bytes) : HubAuthState :=
  if w.verifyP256 c.hubPubkey (hubSigMaterial c.clientNonce c.sessionId c.bootId) sig then .verified else .mismatch

/-- The verifier.  An answer that was given is not given again. -/
def adoptHubSignature (sig : TrustBytes) (s : Sys ε) : Sys ε :=
  let c := s.client
  if c.hubAuth = .verified ∨ c.hubAuth = .mismatch then s
  else if !c.sigRequested then s
  else if c.hubPubkey = [] then setHubAuth w .unverifiable s
  else setHubAuth w (verdict w c sig.val) s

/-- Present the token as a proof over the nonce of this session. -/
def sendAuthProof (s : Sys ε) : Sys ε :=
  match s.client.id.token.bind fun token => w.hmac token s.client.nonce with
  | none => s
  | some mac =>
    match encodeTrustEnvelope { tokenProof := some mac, presentationMode := some 1 } 64 with
    | none => s
    | some bytes => (sendFrame w .auth 0 bytes s).2

/-! ## The wish list -/

def wishOf (x : Wish) : SubscriptionWish :=
  { channelId := x.channelId, rateHz := x.rateHz, priority := x.priority.code }

/-- Ask for everything again. -/
def resendSubscriptionWishes (s : Sys ε) : Sys ε :=
  if s.client.wishes.isEmpty then s
  else match encodeSubscribe w.f32Bits ((s.client.wishes.take kSubscribeMaxWishes).map wishOf) 400 with
    | none => s
    | some bytes => (sendFrame w .subscribe 0 bytes s).2

end

end Client

end SlopSync
