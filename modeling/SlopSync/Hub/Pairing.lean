import SlopSync.Hub.Lifecycle

/-! # Pairing and authentication

The change tripwire (`applyTrustObservation`), AUTH, the pairing ceremonies, the pairing windows and the
deferred hub signature. -/

namespace SlopSync

open Keyed

section

variable {ε : Type} (w : World ε) (c : Config)

def modPairing (f : PairingManager → PairingManager) (s : Sys ε) : Sys ε := setPairing (f s.hub.pairing) s

def modPending (f : PendingPairingList → PendingPairingList) (s : Sys ε) : Sys ε :=
  modPairing (fun p => { p with pending := f p.pending }) s

/-- How long a knock waits for an answer. -/
def pairingWindowMs : UInt32 := Limits.pairingWindowDefaultS * 1000

/-! ## The tripwire -/

/-- Queue a suspended device for re-approval and tell everyone. -/
def queueReapproval (i : SlotIdx) (suspendedRole : AccessLevel) (nowMs : UInt32) (s : Sys ε) : Sys ε :=
  let se := s.session i
  let s := match s.hub.pairing.pending.add se.instanceId se.sessionId (nowMs + pairingWindowMs)
      PairingModes.knockApprove with
    | none => s
    | some l => modPending (fun _ => l.modify se.instanceId fun k =>
        { k with reapproval := true, kind := .assign se.clientKind.data, name := .assign se.clientName.data,
                 version := .assign se.clientVer.data }) s
  let s := emitPairingEvent w c PairingEventKinds.recognizedPending se.instanceId.val se.clientName.data
    PairingModes.knockApprove suspendedRole se.clientVer.data nowMs s
  publishPairedRosterState c (publishPendingPairingState c nowMs s)

/-- What the ledger makes of a session's introduction. -/
def observe (p : PairingManager) (se : HubSession) : PairingManager.HelloObservation × PairingManager :=
  p.observeHello se.instanceId se.clientKind.data se.clientName.data
    (if se.hasClientVer then some se.clientVer.data else none) se.presentationMode

/-- Record what the session reported about itself and return the role it may have.  An instance the ledger
does not know keeps the role already in the session. -/
def applyTrustObservation (i : SlotIdx) (nowMs : UInt32) (s : Sys ε) : AccessLevel × Sys ε :=
  let role := (s.session i).role
  let (obs, p) := observe s.hub.pairing (s.session i)
  let s := setPairing p s
  if !obs.known then (role, s)
  else
    let s := if obs.suspended then queueReapproval w c i obs.suspendedRole nowMs s else s
    (obs.effectiveRole, s)

def setRole (i : SlotIdx) (role : AccessLevel) (s : Sys ε) : Sys ε :=
  s.modSession i fun se => { se with role }

/-! ## AUTH -/

/-- A wrong proof is a strike; the third ends the session. -/
def authStrike (i : SlotIdx) (nowMs : UInt32) (s : Sys ε) : Sys ε :=
  let s := s.modSlot i fun sl => { sl with authFailures := sl.authFailures + 1 }
  let s := sendNack w i { code := .unauthorized } s
  if Limits.authAttemptsMax ≤ (s.slot i).authFailures then
    teardownSession w c i nowMs (sendEncoded w i .goodbye (encodeGoodbye { code := .unauthorized } 64) s)
  else s

/-- The session with the presentation mode an AUTH named. -/
def presented (t : TrustMap) (se : HubSession) : HubSession :=
  { se with presentationMode := t.presentationMode.getD 1 }

/-- The proof verified: the proved role goes through the tripwire and is granted. -/
def acceptProof (i : SlotIdx) (proved : AccessLevel) (nowMs : UInt32) (s : Sys ε) : Sys ε :=
  let s := s.modSlot i fun sl => { sl with authFailures := 0 }
  let (role, s) := applyTrustObservation w c i nowMs (setRole i proved s)
  let s := setRole i role s
  publishPairedRosterState c (sendEncoded w i .grant (encodeGrant w.f32Bits { roles := some role } 64) s)

/-- `msg` is the decoded trust map of the frame. -/
def handleAuth (i : SlotIdx) (msg : Option TrustMap) (nowMs : UInt32) (s : Sys ε) : Sys ε :=
  if Limits.authAttemptsMax ≤ (s.slot i).authFailures then s
  else match msg.bind (fun t => t.tokenProof.map fun p => (t, p)) with
    | none => sendNack w i { code := .malformed } s
    | some (t, proof) =>
      let s := s.modSession i (presented t)
      let (proved, proofOk) :=
        s.hub.pairing.validateProof w.hmac (s.session i).instanceId proof (s.slot i).nonce
      if !proofOk then authStrike w c i nowMs s else acceptProof w c i proved nowMs s

/-! ## Ceremonies -/

/-- The hub key rides in PAIR_GRANT when there is one. -/
def pairGrantTrust : Option TrustMap :=
  if 0 < w.publicKey.length && w.publicKey.length ≤ 33 then some { hubPubkey := some w.publicKey } else none

/-- Label the ledger entry of `inst` as the session introduced itself. -/
def labelEntry (se : HubSession) (e : PairedEntry) : PairedEntry :=
  { e with kind := .assign se.clientKind.data, name := .assign se.clientName.data,
           version := if se.hasClientVer then .assign se.clientVer.data else e.version,
           presentationMode := se.presentationMode }

/-- Draw a token and write the ledger entry; nothing when the ledger is full of other devices. -/
def mintEntry (inst : InstanceId) (role : AccessLevel) (mode : UInt8) (s : Sys ε) : Option (Token × Sys ε) :=
  if !s.hub.pairing.canGrant inst then none
  else
    let (token, env) := w.fill 16 s.env
    some (token, modPairing (fun p => p.grant inst role mode token) { s with env })

/-- Mint, deliver the token on the slot's transport and raise its session to `role`. -/
def issuePairGrant (i : SlotIdx) (inst : InstanceId) (role : AccessLevel) (mode : UInt8) (nowMs : UInt32)
    (s : Sys ε) : Bool × Sys ε :=
  match mintEntry w inst role mode s with
  | none => (false, s)
  | some (token, s) =>
    let se := s.session i
    let s := modPairing (fun p => p.modify inst (labelEntry se)) s
    match encodePairGrant { token, roles := role, trust := pairGrantTrust w } 96 with
    | none => (false, s)
    | some bytes =>
      let s := (sendFrameTo w i .pairGrant 0 bytes 0 s).2
      let s := setRole i role s
      let s := modPending (fun l => l.remove inst) s
      let s := emitPairingEvent w c PairingEventKinds.granted inst.val se.clientName.data mode role
        se.clientVer.data nowMs s
      (true, publishPairedRosterState c (publishPendingPairingState c nowMs s))

/-- A knock on an open presence window consumes it. -/
def presenceKnock (i : SlotIdx) (inst : InstanceId) (nowMs : UInt32) (s : Sys ε) : Sys ε :=
  let role := s.hub.pairing.presenceGrantRole
  let s := modPairing PairingManager.closePresenceWindow s
  let s : Sys ε := { s with hub := { s.hub with presenceWasOpen := false } }
  let (ok, s) := issuePairGrant w c i inst role PairingModes.pushToPair nowMs s
  if !ok then sendNackTracked w c i { code := .pairingDenied } nowMs s
  else
    publishPendingPairingState c nowMs
      (emitPairingEvent w c PairingEventKinds.windowClosed [] [] PairingModes.pushToPair .watch [] nowMs s)

/-- Wait in the pending list for a `configure` session's answer. -/
def queueKnock (i : SlotIdx) (inst : InstanceId) (nowMs : UInt32) (s : Sys ε) : Sys ε :=
  let se := s.session i
  match s.hub.pairing.pending.add inst se.sessionId (nowMs + pairingWindowMs) PairingModes.knockApprove with
  | none => sendNackTracked w c i { code := .busy, retryAfterMs := some pairingWindowMs } nowMs s
  | some l =>
    let label (k : PendingKnock) : PendingKnock :=
      { k with kind := .assign se.clientKind.data, name := .assign se.clientName.data,
               version := if se.hasClientVer then .assign se.clientVer.data else k.version }
    let l := l.modify inst label
    let version := ((l.find inst).map fun k => k.version.data).getD []
    let s := modPending (fun _ => l) s
    let s := emitPairingEvent w c PairingEventKinds.knocked inst.val se.clientName.data
      PairingModes.knockApprove .watch version nowMs s
    publishPendingPairingState c nowMs s

def handleKnock (i : SlotIdx) (inst : InstanceId) (nowMs : UInt32) (s : Sys ε) : Sys ε :=
  if (s.session i).instanceId ≠ inst then sendNackTracked w c i { code := .pairingDenied } nowMs s
  else if s.hub.pairing.presenceWindowOpen nowMs then presenceKnock w c i inst nowMs s
  else if !s.hub.pairing.knockApproveEnabled then
    sendNackTracked w c i { code := .pairingRequired } nowMs s
  else queueKnock w c i inst nowMs s

/-- The PIN ceremony after a matching proof: the session is set to `control`. -/
def pinGrant (i : SlotIdx) (inst : InstanceId) (token : Token) (nowMs : UInt32) (s : Sys ε) : Sys ε :=
  let se := s.session i
  let s := modPairing (fun p => { p with failCount := 0 }) s
  let s := sendEncoded w i .pairGrant
    (encodePairGrant { token, roles := .control, trust := pairGrantTrust w } 96) s
  let s := modPairing (fun p => p.modify inst (labelEntry se)) s
  let s := setRole i .control s
  let s := emitPairingEvent w c PairingEventKinds.granted inst.val se.clientName.data PairingModes.pinProof
    .control se.clientVer.data nowMs s
  publishPairedRosterState c s

def handlePinProof (i : SlotIdx) (inst : InstanceId) (proof : Token) (nowMs : UInt32) (s : Sys ε) : Sys ε :=
  if !s.hub.pairing.windowOpen nowMs then sendNack w i { code := .pairingRequired } s
  else if pairingPinProof s.hub.pairing.pin (s.slot i).nonce ≠ proof then
    sendNack w i { code := .pairingDenied } (modPairing PairingManager.notePinFailure s)
  else match mintEntry w inst .control PairingModes.pinProof s with
    | none => sendNack w i { code := .pairingDenied } s
    | some (token, s) => pinGrant w c i inst token nowMs s

def handlePairReq (i : SlotIdx) (msg : Option PairReqMsg) (nowMs : UInt32) (s : Sys ε) : Sys ε :=
  match msg with
  | none => sendNack w i { code := .malformed } s
  | some m =>
    match m.pinProof with
    | none => handleKnock w c i m.instanceId nowMs s
    | some proof => handlePinProof w c i m.instanceId proof nowMs s

/-! ## Windows -/

def pairingWindowEvent (kind : UInt8) (role : AccessLevel) (nowMs : UInt32) (s : Sys ε) : Sys ε :=
  emitPairingEvent w c kind [] [] PairingModes.pushToPair role [] nowMs s

/-- The PIN window, which the host may also open, and close, through the manager that `pairing()` hands out. -/
def openPairingWindow (pinAscii : Bytes) (s : Sys ε) : Sys ε :=
  modPairing (fun p => p.openWindow pinAscii (clockMs w s)) s

def openPresenceWindow (s : Sys ε) : Sys ε :=
  let nowMs := clockMs w s
  if s.hub.pairing.presenceWindowOpen nowMs then s
  else
    let s := modPairing (fun p => p.openPresenceWindow nowMs) s
    let s : Sys ε := { s with hub := { s.hub with presenceWasOpen := true } }
    publishPendingPairingState c nowMs
      (pairingWindowEvent w c PairingEventKinds.windowOpened s.hub.pairing.presenceGrantRole nowMs s)

def closePresenceWindow (s : Sys ε) : Sys ε :=
  let nowMs := clockMs w s
  if !s.hub.pairing.presenceWindowOpen nowMs then s
  else
    let s := modPairing PairingManager.closePresenceWindow s
    let s : Sys ε := { s with hub := { s.hub with presenceWasOpen := false } }
    publishPendingPairingState c nowMs (pairingWindowEvent w c PairingEventKinds.windowClosed .watch nowMs s)

/-- Notice a presence window that ran out, and say what changed. -/
def noticeWindow (nowMs : UInt32) (anyExpired : Bool) (s : Sys ε) : Sys ε :=
  let openNow := s.hub.pairing.presenceWindowOpen nowMs
  let closed := s.hub.presenceWasOpen && !openNow
  let s : Sys ε := { s with hub := { s.hub with presenceWasOpen := openNow } }
  let s := if closed then pairingWindowEvent w c PairingEventKinds.windowClosed .watch nowMs s else s
  if closed || anyExpired then publishPendingPairingState c nowMs s else s

/-- Expire knocks, then the window. -/
def pumpPairing (nowMs : UInt32) (s : Sys ε) : Sys ε :=
  let expired := s.hub.pairing.pending.select (PendingPairingList.expired nowMs)
  noticeWindow w c nowMs (!expired.isEmpty) (expired.foldl (dropKnock w c nowMs) s)

/-! ## The hub signature -/

def emitHubSig (i : SlotIdx) (sig : Bytes) (s : Sys ε) : Sys ε :=
  sendEncoded w i .hubSig (encodeTrustEnvelope { welcomeSig := some sig } 128) s

/-- The first pending job, taken off the queue. -/
def takePendingSignJob (s : Sys ε) : Option ((UInt32 × Bytes) × Sys ε) :=
  (allSlots.find? fun i => (s.slot i).signPending).map fun i =>
    let sid := (s.session i).sessionId
    ((sid, hubSigMaterial ((s.slot i).clientNonce.getD (ByteArr.zero 8)) sid s.hub.bootId),
      s.modSlot i fun sl => { sl with signPending := false })

def submitSignature (sid : UInt32) (sig : Bytes) (s : Sys ε) : Bool × Sys ε :=
  if sid = 0 || sig.isEmpty || decide (72 < sig.length) then (false, s)
  else match allSlots.find? fun i => (s.session i).occupied && (s.session i).sessionId == sid with
    | none => (false, s)
    | some i =>
      if (s.slot i).signDelivered || (s.slot i).transport.isNone then (false, s)
      else (true, (emitHubSig w i sig s).modSlot i fun sl => { sl with signDelivered := true })

/-- Sign what is queued, at most `maxJobs` delivered.  Each round takes a job, so five rounds drain it. -/
def signPendingNow (maxJobs : Nat) : Nat → Nat → Sys ε → Sys ε
  | 0, _, s => s
  | fuel + 1, done, s =>
    if maxJobs ≤ done then s
    else match takePendingSignJob s with
      | none => s
      | some ((sid, msg), s) =>
        let (sig, env) := w.signP256 msg s.env
        let s : Sys ε := { s with env }
        if sig.isEmpty || decide (72 < sig.length) then signPendingNow maxJobs fuel done s
        else
          let (ok, s) := submitSignature w sid sig s
          signPendingNow maxJobs fuel (if ok then done + 1 else done) s

end

end SlopSync
