import SlopSync.Hub.Pairing
import SlopSync.Hub.Push

/-! # INTENT

The write plane: `handleIntent` checks an intent in the order of the source (rate, readiness, idempotency ring,
catalog, class, access, generation), handles the safety and session-admin ops itself and gives the rest to the
delegate.  Every acceptance ends in `acceptIntent`, which remembers the ECHO and sends it. -/

namespace SlopSync

section

variable {ε : Type} (w : World ε) (c : Config)

def findSlotBySession (h : Hub) (sid : UInt32) : Option SlotIdx :=
  if sid = 0 then none
  else allSlots.find? fun i => (h.slots i).session.occupied && (h.slots i).session.sessionId == sid

/-- A refusal that names the intent. -/
def nackIntent (code : NackCode) (m : IntentMsg) : NackMsg := { code, intentId := some m.intentId }

/-- A refusal that names the intent and its channel. -/
def nackChannel (code : NackCode) (m : IntentMsg) : NackMsg :=
  { code, channelId := some m.channelId, intentId := some m.intentId }

/-! ## Acceptance -/

/-- Remember and send the ECHO.  One that did not encode is neither remembered nor sent; one over the ring's
slot size is only sent. -/
def acceptIntent (i : SlotIdx) (m : IntentMsg) (echo : Option Bytes) (nowMs : UInt32) (s : Sys ε) : Sys ε :=
  let s := s.log (.accepted i m.intentId echo)
  match echo with
  | none => s
  | some bytes =>
    let s := s.modSession i fun se =>
      { se with intentRing := (se.intentRing.store m.intentId bytes).getD se.intentRing }
    (sendFrameToTracked w c i .echo m.channelId bytes nowMs 0 s).2

/-- The ECHO of an intent at the current generation, in a buffer of `cap` bytes. -/
def echoFor (h : Hub) (m : IntentMsg) (applied : IntentValueMap) (cap : Nat) : Option Bytes :=
  encodeEcho { intentId := m.intentId, cfgGen := h.cfgGen, applied } cap

/-! ## Refusals that need no state change -/

/-- Catalog, class, access and generation, in this order. -/
def intentRefusal (cfgGen : UInt16) (role : AccessLevel) (m : IntentMsg) : Option NackMsg :=
  match c.catalog.find m.channelId with
  | none => some (nackChannel .unknownChannel m)
  | some entry =>
    if entry.cls ≠ .intent then some (nackChannel .classMismatch m)
    else
      let need := entry.requiredAccessFor m.value
      if role < need then some (nackChannel (if need = .control then .notController else .accessDenied) m)
      else if m.precondition.any (fun g => g != cfgGen) then some (nackIntent .conflict m)
      else none

/-! ## Safety ops -/

/-- The op of a safety intent: the first integer under key 1. -/
def safetyOp (m : IntentMsg) : Option UInt64 :=
  if m.channelId = Channels.safetyIntents then
    m.value.findSome? fun f => match f.value with
      | .u64 v => if f.key = 1 then some v else none
      | _ => none
  else none

/-- Clearing needs `control` whatever the catalog says, and the delegate's consent. -/
def intentEstopClear (i : SlotIdx) (m : IntentMsg) (nowMs : UInt32) (s : Sys ε) : Sys ε :=
  if (s.session i).role < .control then sendNackTracked w c i (nackIntent .notController m) nowMs s
  else
    let (ok, s) := clearEstop w c s
    if !ok then sendNackTracked w c i (nackIntent .clearRefused m) nowMs s
    else acceptIntent w c i m (echoFor s.hub m [] 32) nowMs s

/-- A client's ESTOP is treated as a valid ESTOP frame would be.  A repeat keeps the sequence number. -/
def intentEstop (i : SlotIdx) (m : IntentMsg) (nowMs : UInt32) (s : Sys ε) : Sys ε :=
  let st := s.hub.safety
  let s := handleEstopFrame w c
    { cause := SafetyCauses.user, origin := (s.session i).role.code
      seq := if st.estop then st.estopSeq else st.estopSeq + 1 } nowMs s
  acceptIntent w c i m (echoFor s.hub m [⟨1, .u64 SafetyOps.estop.toUInt64⟩] 64) nowMs s

/-! ## Session admin -/

/-- What an admin intent asks for; of a repeated key the last one counts. -/
structure AdminOp where
  op : Option UInt64 := none
  session : UInt32 := 0
  instance_ : Bytes := []
  role : Option UInt64 := none
  deriving DecidableEq, Repr

def adminField (a : AdminOp) (f : IntentValueField) : AdminOp :=
  match f.value with
  | .u64 v =>
    if f.key = 1 then { a with op := some v }
    else if f.key = 2 then { a with session := v.toUInt32 }
    else if f.key = 4 then { a with role := some v }
    else a
  | .bstr b => if f.key = 3 then { a with instance_ := b } else a
  | _ => a

def adminOp (m : IntentMsg) : AdminOp := m.value.foldl adminField {}

/-- The instance id, when the bytes are one. -/
def AdminOp.target (a : AdminOp) : Option InstanceId :=
  if h : a.instance_.length = 8 then some ⟨a.instance_, h⟩ else none

/-- The granted level: `control` when none was named, nothing when it is not an access level. -/
def AdminOp.level (a : AdminOp) : Option AccessLevel :=
  match a.role with
  | none => some .control
  | some v =>
    if v = 0 then some .watch else if v = 1 then some .control else if v = 2 then some .configure else none

def adminNack (i : SlotIdx) (m : IntentMsg) (code : NackCode) (nowMs : UInt32) (s : Sys ε) : Sys ε :=
  sendNackTracked w c i (nackChannel code m) nowMs s

def adminEcho (i : SlotIdx) (m : IntentMsg) (op : UInt64) (nowMs : UInt32) (s : Sys ε) : Sys ε :=
  acceptIntent w c i m (echoFor s.hub m [⟨1, .u64 op⟩] 64) nowMs s

/-- The ECHO goes out before the eviction, which may be of the sender itself. -/
def adminEvict (i : SlotIdx) (m : IntentMsg) (op : UInt64) (target nowMs : UInt32) (s : Sys ε) : Sys ε :=
  match findSlotBySession s.hub target with
  | none => adminNack w c i m .invalidValue nowMs s
  | some v =>
    let s := adminEcho w c i m op nowMs s
    teardownSession w c v nowMs (sendGoodbye w v .sessionEvicted s)

/-- The slot that can be handed a grant for this knock. -/
def joinerOf (h : Hub) (k : PendingKnock) : Option SlotIdx :=
  (findSlotBySession h k.sessionId).filter fun j => (h.slots j).transport.isSome

/-- Up to the approver's own level.  The knock of a device that left is dropped. -/
def adminApprove (i : SlotIdx) (m : IntentMsg) (op : UInt64) (a : AdminOp) (nowMs : UInt32) (s : Sys ε) : Sys ε :=
  match a.target, a.level with
  | some inst, some role =>
    if (s.session i).role < role then adminNack w c i m .accessDenied nowMs s
    else match s.hub.pairing.pending.find inst with
      | none => adminNack w c i m .invalidValue nowMs s
      | some k =>
        match joinerOf s.hub k with
        | none =>
          let s := modPending (fun l => l.remove inst) s
          let s := emitPairingEvent w c PairingEventKinds.expired inst.val [] k.mode .watch [] nowMs s
          adminNack w c i m .invalidValue nowMs (publishPendingPairingState c nowMs s)
        | some j =>
          let (ok, s) := issuePairGrant w c j inst role k.mode nowMs s
          if !ok then adminNack w c i m .busy nowMs s else adminEcho w c i m op nowMs s
  | _, _ => adminNack w c i m .invalidValue nowMs s

/-- Revoke the device and say so. -/
def revokeDevice (inst : InstanceId) (mode : UInt8) (nowMs : UInt32) (s : Sys ε) : Sys ε :=
  let s := modPairing (fun p => (p.revoke inst).getD p) s
  publishPairedRosterState c (emitPairingEvent w c PairingEventKinds.revoked inst.val [] mode .watch [] nowMs s)

/-- Denying a re-approval revokes the device. -/
def adminDeny (i : SlotIdx) (m : IntentMsg) (op : UInt64) (a : AdminOp) (nowMs : UInt32) (s : Sys ε) : Sys ε :=
  match a.target.bind fun inst => (s.hub.pairing.pending.find inst).map fun k => (inst, k) with
  | none => adminNack w c i m .invalidValue nowMs s
  | some (inst, k) =>
    let s := modPending (fun l => l.remove inst) s
    let s := if k.reapproval then revokeDevice w c inst k.mode nowMs s else s
    let s := emitPairingEvent w c PairingEventKinds.denied inst.val [] k.mode .watch [] nowMs s
    adminEcho w c i m op nowMs (publishPendingPairingState c nowMs s)

/-- The pending entry of a revoked device goes too. -/
def adminRevoke (i : SlotIdx) (m : IntentMsg) (op : UInt64) (a : AdminOp) (nowMs : UInt32) (s : Sys ε) : Sys ε :=
  match a.target.bind fun inst => (s.hub.pairing.revoke inst).map fun p => (inst, p) with
  | none => adminNack w c i m .invalidValue nowMs s
  | some (inst, p) =>
    let s := modPending (fun l => l.remove inst) (setPairing p s)
    let s := emitPairingEvent w c PairingEventKinds.revoked inst.val [] 0 .watch [] nowMs s
    adminEcho w c i m op nowMs (publishPendingPairingState c nowMs (publishPairedRosterState c s))

def handleAdminIntent (i : SlotIdx) (m : IntentMsg) (nowMs : UInt32) (s : Sys ε) : Sys ε :=
  let a := adminOp m
  match a.op with
  | none => adminNack w c i m .invalidValue nowMs s
  | some op =>
    if op = SessionAdminOps.evict.toUInt64 then adminEvict w c i m op a.session nowMs s
    else if op = SessionAdminOps.pairApprove.toUInt64 then adminApprove w c i m op a nowMs s
    else if op = SessionAdminOps.pairDeny.toUInt64 then adminDeny w c i m op a nowMs s
    else if op = SessionAdminOps.revoke.toUInt64 then adminRevoke w c i m op a nowMs s
    else adminNack w c i m .unsupportedOp nowMs s

/-! ## Delegated intents -/

/-- Take the source of a mapped channel before the delegate is asked; false when it was refused. -/
def acquireForIntent (i : SlotIdx) (m : IntentMsg) (src : UInt8) (nowMs : UInt32) (s : Sys ε) : Bool × Sys ε :=
  let sid := (s.session i).sessionId
  let (res, ownership) := s.hub.ownership.acquire src sid (s.session i).role m.takeover
  let s : Sys ε := { s with hub := { s.hub with ownership } }
  match res with
  | .conflict =>
    (false, sendNackTracked w c i
      (nackIntent (if m.takeover then .sourceConflict else .takeoverRequired) m) nowMs s)
  | .alreadyOwner => (true, s)
  | .acquired => (true, publishControlOwnerStateIfPresent c (notify w (.onSourceOwnership src sid 0) s))
  | .takenOver =>
    (true, emitTakeoverEvent w src sid nowMs
      (publishControlOwnerStateIfPresent c (notify w (.onSourceOwnership src sid 1) s)))

/-- Publish and announce a safety word that was `before`. -/
def announceSafety (before : UInt8) (nowMs : UInt32) (s : Sys ε) : Sys ε :=
  emitSafetyEdgeEvents w c before nowMs (broadcastSafetyNow w c nowMs (publishSafetySnapshot s))

/-- Latch the op the delegate accepted. -/
def latchAccepted (i : SlotIdx) (op : Option UInt64) (nowMs : UInt32) (s : Sys ε) : Sys ε :=
  match op with
  | none => s
  | some op =>
    let before := s.hub.safety.word
    let (changed, s) := applySafetyOpLatch op.toUInt8 (s.session i).sessionId s
    if changed then announceSafety w c before nowMs s else s

/-- A motion intent that was applied lifts STOP. -/
def liftStop (nowMs : UInt32) (s : Sys ε) : Sys ε :=
  let st := s.hub.safety
  if st.word &&& SafetyBits.stop != 0 then
    announceSafety w c st.word nowMs
      (setSafety { st with word := st.word &&& ~~~SafetyBits.stop, ownerSession := 0 } s)
  else s

/-- What follows from an intent the delegate applied, before its ECHO. -/
def noteApplied (i : SlotIdx) (m : IntentMsg) (mapped cfgChanged : Bool) (nowMs : UInt32) (s : Sys ε) : Sys ε :=
  let s : Sys ε := if cfgChanged then { s with hub := { s.hub with cfgGen := s.hub.cfgGen + 1 } } else s
  let s := latchAccepted w c i (safetyOp m) nowMs s
  if mapped then liftStop w c nowMs s else s

/-- The delegate applies; its refusal is the answer. -/
def delegateIntent (i : SlotIdx) (m : IntentMsg) (mapped : Option UInt8) (nowMs : UInt32) (s : Sys ε) : Sys ε :=
  let ((res, cfgChanged), env) := w.applyIntent m.channelId m.value (s.session i).role s.env
  let s : Sys ε := { s.log (.applyIntent i m.channelId m.value mapped res) with env }
  match res with
  | .error code => sendNackTracked w c i (nackIntent code m) nowMs s
  | .ok applied =>
    let s := noteApplied w c i m mapped.isSome cfgChanged nowMs s
    acceptIntent w c i m (echoFor s.hub m applied 256) nowMs s

/-- An ordinary intent: source first, then the delegate. -/
def applyIntent (i : SlotIdx) (m : IntentMsg) (nowMs : UInt32) (s : Sys ε) : Sys ε :=
  let (mapped, env) := w.sourceForChannel m.channelId s.env
  let s : Sys ε := { s with env }
  match mapped with
  | none => delegateIntent w c i m none nowMs s
  | some src =>
    let (ok, s) := acquireForIntent w c i m src nowMs s
    if ok then delegateIntent w c i m (some src) nowMs s else s

/-! ## The pipeline -/

/-- An intent that passed every check. -/
def performIntent (i : SlotIdx) (m : IntentMsg) (nowMs : UInt32) (s : Sys ε) : Sys ε :=
  if safetyOp m = some SafetyOps.estopClear.toUInt64 then intentEstopClear w c i m nowMs s
  else if safetyOp m = some SafetyOps.estop.toUInt64 then intentEstop w c i m nowMs s
  else if m.channelId = Channels.sessionAdmin then handleAdminIntent w c i m nowMs s
  else applyIntent w c i m nowMs s

/-- Readiness, then the ring: a duplicate is answered with the ECHO it got, and not applied again. -/
def admitIntent (i : SlotIdx) (m : IntentMsg) (nowMs : UInt32) (s : Sys ε) : Sys ε :=
  if !(s.session i).ready then sendNack w i (nackChannel .notReady m) s
  else match (s.session i).intentRing.lookup m.intentId with
    | some cached => (sendFrameToTracked w c i .echo m.channelId cached nowMs 0 s).2
    | none =>
      match intentRefusal c s.hub.cfgGen (s.session i).role m with
      | some n => sendNack w i n s
      | none => performIntent w c i m nowMs s

def handleIntent (i : SlotIdx) (msg : Option IntentMsg) (nowMs : UInt32) (s : Sys ε) : Sys ε :=
  match msg with
  | none => sendNack w i { code := .malformed } s
  | some m =>
    let (ok, intentLimiter) := (s.session i).intentLimiter.allow nowMs
    let s := s.modSession i fun se => { se with intentLimiter }
    if !ok then sendNack w i (nackIntent .rateLimited m) s else admitIntent w c i m nowMs s

end

end SlopSync
