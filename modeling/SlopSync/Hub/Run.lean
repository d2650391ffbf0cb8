import SlopSync.Hub.Blob
import SlopSync.Hub.Hello
import SlopSync.Hub.Intent
import SlopSync.Hub.Stream

/-! # The hub from outside

The frame pump, `update`, and every public call as a step.  Inbound frames are kept decoded; a decoder's failure
is part of the frame.  `Reachable` is what a host and its clients can bring about from a fresh hub, in any order
of calls and with any behaviour of the environment. -/

namespace SlopSync

/-- A frame with a header, by type. -/
inductive Inbound
  | hello (m : Option HelloMsg)
  | subscribe (m : Except DecodeError (List SubscriptionWish))
  | unsubscribe (m : Option (List UInt16))
  | publish (m : Option (List PublishWish))
  | catalogReady (etag : Option Etag)
  | intent (m : Option IntentMsg)
  | stream (ch : UInt16) (payload : Bytes)
  | ping (payload : Bytes)
  | clock (payload : Bytes)
  | goodbye
  | blobReq (m : Option BlobReqMsg)
  | pairReq (m : Option PairReqMsg)
  | auth (m : Option TrustMap)
  | probe
  | probeReport (m : Option ProbeResult)
  | other

/-- What a transport hands up. -/
inductive RxFrame
  | estop (f : EstopFrame)
  /-- ESTOP magic with a bad checksum. -/
  | badEstop
  /-- Too short for a header. -/
  | short
  | frame (seq : UInt16) (m : Inbound)

section

variable {ε : Type} (w : World ε) (c : Config)

/-! ## The frame pump -/

/-- Everything but HELLO needs a session. -/
def dispatch (i : SlotIdx) (m : Inbound) (nowMs : UInt32) (s : Sys ε) : Sys ε :=
  match m with
  | .hello h => handleHello w c i h nowMs s
  | m =>
    if !(s.session i).occupied then s
    else match m with
      | .hello _ | .other => s
      | .subscribe m => handleSubscribe w c i m s
      | .unsubscribe m => handleUnsubscribe i m s
      | .publish m => handlePublish w c i m nowMs s
      | .catalogReady e => handleCatalogReady c i e s
      | .intent m => handleIntent w c i m nowMs s
      | .stream ch payload => handleStream w c i ch payload nowMs s
      | .ping payload => handlePing w i payload s
      | .clock payload => handleClock w i payload s
      | .goodbye => teardownSession w c i nowMs s
      | .blobReq m => handleBlobReq w c i m s
      | .pairReq m => handlePairReq w c i m nowMs s
      | .auth m => handleAuth w c i m nowMs s
      | .probe => handleProbeRequest w i s
      | .probeReport m => handleProbeReportFrame i m s

def setDispatchSeq (seq : Option UInt16) (s : Sys ε) : Sys ε :=
  { s with hub := { s.hub with dispatchSeq := seq } }

/-- The frame's sequence number is known to the NACKs it provokes. -/
def dispatchFrame (i : SlotIdx) (seq : UInt16) (m : Inbound) (nowMs : UInt32) (s : Sys ε) : Sys ε :=
  setDispatchSeq none (dispatch w c i m nowMs (setDispatchSeq (some seq) s))

/-- A frame was received: it is proof of life. -/
def noteRx (i : SlotIdx) (nowMs : UInt32) (s : Sys ε) : Sys ε :=
  let s := s.log (.read i)
  let s := if (s.session i).occupied then s.modSession i fun se => { se with lastRxMs := nowMs } else s
  reviveIfStale w i nowMs s

/-- One frame.  ESTOP is recognised before any header and needs no session. -/
def pumpFrame (i : SlotIdx) (nowMs : UInt32) (rx : RxFrame) (s : Sys ε) : Sys ε :=
  match rx with
  | .estop f => handleEstopFrame w c f nowMs (noteRx w i nowMs s)
  | .badEstop | .short => s
  | .frame seq m => dispatchFrame w c i seq m nowMs (noteRx w i nowMs s)

/-- Read until nothing is left or a handler let go of the transport. -/
def pumpSlot (i : SlotIdx) (nowMs : UInt32) : List RxFrame → Sys ε → Sys ε
  | [], s => s
  | rx :: rest, s =>
    if (s.slot i).transport.isNone then s else pumpSlot i nowMs rest (pumpFrame w c i nowMs rx s)

/-! ## update -/

/-- The three liveness pumps. -/
def pumpLiveness (i : SlotIdx) (nowMs : UInt32) (s : Sys ε) : Sys ε :=
  let s := if (s.session i).occupied then pumpDeadman w c i nowMs s else s
  let s := if (s.session i).occupied then pumpReadyTimeout w c i nowMs s else s
  if (s.session i).occupied then pumpIdleReap w c i nowMs s else s

/-- What goes out in a tick. -/
def pumpOut (i : SlotIdx) (nowMs : UInt32) (s : Sys ε) : Sys ε :=
  if (s.session i).occupied && (s.slot i).transport.isSome then
    pumpBlobTransfer w c i (pumpEventDrain w i (pumpStatePacing w c i nowMs s))
  else s

def updateSlot (inbox : SlotIdx → List RxFrame) (nowMs : UInt32) (s : Sys ε) (i : SlotIdx) : Sys ε :=
  if (s.slot i).transport.isNone then s
  else pumpOut w c i nowMs (pumpLiveness w c i nowMs (pumpSlot w c i nowMs (inbox i) s))

/-- One pass over everything; `inbox i` is what slot `i`'s transport has to read. -/
def update (nowUs : UInt32) (inbox : SlotIdx → List RxFrame) (s : Sys ε) : Sys ε :=
  let monoMs := s.hub.monoMs.advance nowUs
  let s : Sys ε := { s with hub := { s.hub with monoMs } }
  allSlots.foldl (updateSlot w c inbox monoMs.ms) (pumpPairing w c monoMs.ms s)

/-! ## Calls of the host -/

def publishState (ch : UInt16) (payload : Bytes) (s : Sys ε) : Sys ε := retain ch payload s

/-- Tag and message are cut, never dropped.  The line is kept for replay even when nobody listens. -/
def publishLog (level : UInt8) (tag message : Bytes) (s : Sys ε) : Sys ε :=
  if (c.catalog.find Channels.log).isNone then s
  else
    let nowMs := clockMs w s
    match encodeEvent
        { channelId := Channels.log, timestamp := nowMs, eventKind := 1
          body := some [⟨1, .u64 level.toUInt64⟩, ⟨2, .tstr (tag.take 16)⟩, ⟨3, .u64 nowMs.toUInt64⟩,
            ⟨4, .tstr (message.take 128)⟩] } kEventSlotCapacity with
    | none => s
    | some bytes =>
      publishEvent w Channels.log bytes { s with hub := { s.hub with logRing := s.hub.logRing.push bytes } }

def setCongestionLevel (i : SlotIdx) (level : UInt8) (s : Sys ε) : Sys ε :=
  s.modSlot i fun sl =>
    { sl with congestionLevel := level
              criticalStallSince := if level < 2 then none else sl.criticalStallSince }

/-- Only a channel already granted can be granted again. -/
def regrantForTest (i : SlotIdx) (ch : UInt16) (rate : F32) (s : Sys ε) : Sys ε :=
  match (s.session i).subs.find ch with
  | none => s
  | some e =>
    if !(s.session i).occupied then s
    else match (s.session i).subs.upsert ch rate e.priority with
      | none => s
      | some subs =>
        sendEncoded w i .grant (encodeGrant w.f32Bits
          { grants := [{ channelId := ch, grantedRateHz := rate, priority := e.priority }] } 64)
          (s.modSession i fun se => { se with subs })

/-- A public call of the host, or a change of the world between two of them. -/
inductive Call (ε : Type)
  | world (e : ε)
  | attachTransport (t : TransportId)
  | detachTransport (t : TransportId)
  | update (nowUs : UInt32) (inbox : SlotIdx → List RxFrame)
  | publishState (ch : UInt16) (payload : Bytes)
  | publishEvent (ch : UInt16) (bytes : Bytes)
  | publishLog (level : UInt8) (tag message : Bytes)
  | latchEstop (f : EstopFrame)
  | clearEstop
  | setSafetyModes (manualOverride bypassLimits : Bool)
  | setCongestionLevel (i : SlotIdx) (level : UInt8)
  | bumpConfigGeneration
  /-- The manager that `pairing()` hands out, as the host left it. -/
  | pairing (p : PairingManager)
  | openPresenceWindow
  | closePresenceWindow
  | takePendingSignJob
  | submitSignature (sid : UInt32) (sig : Bytes)
  | signPendingNow (maxJobs : Nat)
  | setInlineSigning (on : Bool)
  | setIdentity (identity : IdentityInfo) (wsPort : UInt16) (ipv4 : UInt32)
  | regrantForTest (i : SlotIdx) (ch : UInt16) (rate : F32)

def call (s : Sys ε) : Call ε → Sys ε
  | .world e => { s with env := e }
  | .attachTransport t => attachTransport w c t s
  | .detachTransport t => detachTransport w c t s
  | .update nowUs inbox => update w c nowUs inbox s
  | .publishState ch payload => publishState ch payload s
  | .publishEvent ch bytes => publishEvent w ch bytes s
  | .publishLog level tag message => publishLog w c level tag message s
  | .latchEstop f => latchEstop w c f s
  | .clearEstop => (clearEstop w c s).2
  | .setSafetyModes o b => setSafetyModes w c o b s
  | .setCongestionLevel i level => setCongestionLevel i level s
  | .bumpConfigGeneration => { s with hub := { s.hub with cfgGen := s.hub.cfgGen + 1 } }
  | .pairing p => setPairing p s
  | .openPresenceWindow => openPresenceWindow w c s
  | .closePresenceWindow => closePresenceWindow w c s
  | .takePendingSignJob => ((takePendingSignJob s).map Prod.snd).getD s
  | .submitSignature sid sig => (submitSignature w sid sig s).2
  | .signPendingNow maxJobs => signPendingNow w maxJobs 5 0 s
  | .setInlineSigning on => { s with hub := { s.hub with inlineSigning := on } }
  | .setIdentity identity wsPort ipv4 => { s with hub := { s.hub with identity, wsPort, ipv4 } }
  | .regrantForTest i ch rate => regrantForTest w i ch rate s

/-! ## Runs -/

/-- The constructor. -/
def boot (e : ε) : Sys ε :=
  let (bootId, env) := drawNonZero w.nextU32 w.drawFuel e
  let s : Sys ε := { hub := { bootId }, env }
  let s := if (c.catalog.find Channels.safety).isSome then publishSafetySnapshot s else s
  publishPairedRosterState c (publishPendingPairingState c 0 s)

/-- A run: the calls made on a fresh hub, oldest first. -/
def run (e : ε) (calls : List (Call ε)) : Sys ε := calls.foldl (call w c) (boot w c e)

/-- The states a hub can be in between two public calls. -/
def Reachable (s : Sys ε) : Prop := ∃ e calls, s = run w c e calls

end

end SlopSync
