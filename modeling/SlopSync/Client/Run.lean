import SlopSync.Client.Session

/-! # The client from outside

The calls an application makes, the pumps of `update`, and runs. -/

namespace SlopSync

namespace Client

section

variable {ε : Type} (w : World ε)

/-! ## Intents -/

/-- Nothing is sent to a machine that did not prove itself. -/
def sendIntent (ch : UInt16) (values : IntentValueMap) (precondition : Option UInt16) (takeover : Bool) (s : Sys ε) :
    Option UInt16 × Sys ε :=
  let c := s.client
  if c.state ≠ .live then (none, s)
  else if c.hubAuth = .mismatch ∨ c.hubAuth = .timeout then (none, s)
  else if kMaxPendingIntents ≤ c.pending.length then (none, s)
  else
    let id := c.nextIntentId
    match encodeIntent { intentId := id, channelId := ch, value := values, precondition, takeover } 300 with
    | none => (none, s)
    | some bytes =>
      let (ok, s) := sendFrame w .intent ch bytes s
      if !ok then (none, s)
      else
        (some id, s.modify fun c => { c with
          pending := c.pending ++ [id]
          nextIntentId := if id + 1 = 0 then 1 else id + 1 })

/-! ## ESTOP -/

def estopFrame (c : Client) : EstopFrame := { cause := c.estopCause, origin := c.roles, seq := c.estopSentSeq }

/-- Send the frame now; `pumpEstopRepeat` sends it again. -/
def initiateEstop (cause : UInt8) (s : Sys ε) : Sys ε :=
  let s := s.modify fun c => { c with
    estopActive := true
    estopSendFailed := false
    estopCause := cause
    estopSentSeq := c.estopNextSeq
    estopNextSeq := if c.estopNextSeq + 1 = 0 then 1 else c.estopNextSeq + 1
    estopAttempts := 0 }
  let s := writeEstop w (estopFrame s.client) s
  s.modify fun c => { c with lastTxMs := clockMs w s, estopAttempts := 1, lastEstopSendMs := clockMs w s }

/-- Repeat until the latch was seen or the attempts are used up. -/
def pumpEstopRepeat (nowMs : UInt32) (s : Sys ε) : Sys ε :=
  if !s.client.estopActive then s
  else if Limits.estopRepeatMax ≤ s.client.estopAttempts then
    s.modify fun c => { c with estopActive := false, estopSendFailed := true }
  else if !timeReached nowMs (s.client.lastEstopSendMs + Limits.estopRepeatIntervalMs) then s
  else
    (writeEstop w (estopFrame s.client) s).modify fun c => { c with
      lastTxMs := nowMs
      estopAttempts := c.estopAttempts + 1
      lastEstopSendMs := nowMs }

/-! ## Pairing -/

def sendPairing (m : PairReqMsg) (s : Sys ε) : Bool × Sys ε :=
  match encodePairReq m 64 with
  | none => (false, s)
  | some bytes => sendFrame w .pairReq 0 bytes s

def sendPairReq (pinProof : Bytes) (s : Sys ε) : Bool × Sys ε :=
  if h : pinProof.length = 16 then
    sendPairing w { instanceId := s.client.id.instanceId, pinProof := some ⟨pinProof, h⟩ } s
  else (false, s)

/-- A request without a proof. -/
def sendPairKnock (s : Sys ε) : Bool × Sys ε := sendPairing w { instanceId := s.client.id.instanceId } s

/-! ## The probe -/

def runProbe (s : Sys ε) : Bool × Sys ε :=
  if s.client.state ≠ .live then (false, s)
  else
    let (ok, s) := sendFrame w .probe 0 [] s
    if !ok then (false, s)
    else
      (true, s.modify fun c => { c with
        probeActive := true
        probeStartMs := clockMs w s
        probeBytesReceived := 0
        probeFramesReceived := 0
        probeMaxIndexSeen := none })

/-- The frames the hub sent, as far as the indices tell. -/
def probeExpected (c : Client) : UInt32 :=
  match c.probeMaxIndexSeen with
  | none => 0
  | some top => top.toUInt32 + 1

def probeResult (nowMs : UInt32) (c : Client) : ProbeResult :=
  let expected := probeExpected c
  let lost := if c.probeFramesReceived < expected then expected - c.probeFramesReceived else 0
  { bytesReceived := c.probeBytesReceived
    spanMs := if 0 < timeDelta nowMs c.probeStartMs then nowMs - c.probeStartMs else 0
    lossPctX100 := if expected = 0 then 0 else (lost.toUInt64 * 10000 / expected.toUInt64).toUInt32
    rttMs := 0 }

/-- Report once, when the time of the burst is over. -/
def pumpProbe (nowMs : UInt32) (s : Sys ε) : Sys ε :=
  if !s.client.probeActive then s
  else if !timeReached nowMs (s.client.probeStartMs + Limits.probeMaxDurationMs) then s
  else
    let s := match encodeProbeReport (probeResult nowMs s.client) 64 with
      | none => s
      | some bytes => (sendFrame w .probeReport 0 bytes s).2
    s.modify fun c => { c with probeActive := false }

/-! ## update -/

/-- The faster cadence keeps a source from being lost in a pause. -/
def pingInterval (c : Client) : UInt32 :=
  if c.holdingSource then Limits.pingIntervalHoldingControlMs else Limits.pingIntervalIdleMs

def pumpPing (nowMs : UInt32) (s : Sys ε) : Sys ε :=
  if s.client.state ≠ .closed ∧ timeReached nowMs (s.client.lastTxMs + pingInterval s.client) = true then
    (sendFrame w .ping 0 [] s).2
  else s

def kMaxReadyAttempts : Nat := (Limits.catalogReadyTimeoutMs / Limits.catalogChunkGapTimeoutMs).toNat

/-- Declare the catalog again until a snapshot has come. -/
def pumpCatalogReady (nowMs : UInt32) (s : Sys ε) : Sys ε :=
  if !s.client.readyPending then s
  else if kMaxReadyAttempts ≤ s.client.readyAttempts then s.modify fun c => { c with readyPending := false }
  else if !timeReached nowMs (s.client.lastReadySendMs + Limits.catalogChunkGapTimeoutMs) then s
  else match encodeCatalogReady s.client.readyEtag with
    | none => s.modify fun c => { c with readyPending := false }
    | some bytes =>
      (sendFrame w .catalogReady 0 bytes s).2.modify fun c => { c with
        lastReadySendMs := nowMs
        readyAttempts := c.readyAttempts + 1 }

/-- Silence of a hub whose key is pinned is an answer. -/
def pumpHubSigTimeout (nowMs : UInt32) (s : Sys ε) : Sys ε :=
  if s.client.hubAuth ≠ .pending then s
  else if !timeReached nowMs s.client.sigDeadlineMs then s
  else setHubAuth w .timeout s

/-- What `update` does once nothing is left to read. -/
def pumps (nowMs : UInt32) (s : Sys ε) : Sys ε :=
  pumpHubSigTimeout w nowMs (pumpProbe w nowMs (pumpCatalogReady w nowMs (pumpEstopRepeat w nowMs (pumpPing w nowMs s))))

/-- `frames` is what the transport has to read. -/
def update (nowUs : UInt32) (frames : List RxFrame) (s : Sys ε) : Sys ε :=
  let monoMs := s.client.monoMs.advance nowUs
  pumps w monoMs.ms (frames.foldl (handleFrame w monoMs.ms) (s.modify fun c => { c with monoMs }))

/-! ## Accessors -/

/-! ## Runs -/

/-- A call of the application, or a change of the world between two of them. -/
inductive Call (ε : Type)
  | world (e : ε)
  | addSubscriptionWish (x : Wish)
  | setCachedEtag (etag : Etag)
  | connect
  | disconnect
  | update (nowUs : UInt32) (frames : List RxFrame)
  | sendIntent (ch : UInt16) (values : IntentValueMap) (precondition : Option UInt16) (takeover : Bool)
  | initiateEstop (cause : UInt8)
  | sendPairReq (pinProof : Bytes)
  | sendPairKnock
  | runProbe
  | setClientVersion (ver : Option Bytes)
  | setHubPublicKey (key : Bytes)
  | requestHubSignature (on : Bool)
  | setTokenPresentationMode (mode : UInt8)

/-- The list of wishes is bounded. -/
def addSubscriptionWish (x : Wish) (c : Client) : Client :=
  if kMaxWishes ≤ c.wishes.length then c else { c with wishes := c.wishes ++ [x] }

def call (s : Sys ε) : Call ε → Sys ε
  | .world e => { s with env := e }
  | .addSubscriptionWish x => s.modify (addSubscriptionWish x)
  | .setCachedEtag etag => s.modify fun c => { c with cachedEtag := etag }
  | .connect => (connect w s).2
  | .disconnect => disconnect w s
  | .update nowUs frames => update w nowUs frames s
  | .sendIntent ch values precondition takeover => (sendIntent w ch values precondition takeover s).2
  | .initiateEstop cause => initiateEstop w cause s
  | .sendPairReq pinProof => (sendPairReq w pinProof s).2
  | .sendPairKnock => (sendPairKnock w s).2
  | .runProbe => (runProbe w s).2
  | .setClientVersion ver => s.modify fun c => { c with clientVer := ver }
  | .setHubPublicKey key => setHubPublicKey key s
  | .requestHubSignature on => s.modify fun c => { c with sigRequested := on }
  | .setTokenPresentationMode mode => s.modify fun c => { c with presentationMode := mode }

/-- The constructor. -/
def boot (id : ClientIdentity) (e : ε) : Sys ε := { client := { id }, env := e }

/-- A run: the calls made on a new client, oldest first. -/
def run (id : ClientIdentity) (e : ε) (calls : List (Call ε)) : Sys ε := calls.foldl (call w) (boot id e)

end

end Client

end SlopSync
