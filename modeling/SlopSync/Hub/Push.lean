import SlopSync.Hub.Lifecycle

/-! # STATE pushes and the safety latch

`pumpStatePacing` with its push records and load shedding, `broadcastSafetyNow`, and the operations that
change the safety word. -/

namespace SlopSync

open Keyed

/-! ## Load shedding -/

/-- `session/shedding.hpp`. -/
inductive ShedDecision
  | send | decimate2x | decimate4x | conflateHard | drop
  deriving DecidableEq, Repr

def shedDecision (priority : Priority) (cls : ChannelClass) (congestionLevel : UInt8) (segmentClass : Bool) :
    ShedDecision :=
  if congestionLevel = 0 then .send
  else if priority = .critical then .send
  else if segmentClass then
    if congestionLevel = 1 then .send
    else if priority = .background ∨ priority = .normal then .drop else .send
  else if congestionLevel = 1 then
    match priority with
    | .background => if cls = .stream then .decimate4x else if cls = .state then .conflateHard else .send
    | .normal => if cls = .stream then .decimate2x else .send
    | _ => .send
  else
    match priority with
    | .background => .drop
    | .normal => .decimate4x
    | .elevated => .decimate2x
    | .critical => .send

/-! ## Push records -/

/-- The record of `ch`, or the first free one, renamed to `ch`. -/
def findOrCreatePushRecord (rs : List PushRecord) (ch : UInt16) : Option (Nat × List PushRecord) :=
  match rs.findIdx? (fun r => r.valid && r.channelId == ch) with
  | some k => some (k, rs)
  | none =>
    match rs.findIdx? (fun r => !r.valid) with
    | some k => some (k, rs.modify k fun r => { r with channelId := ch, lastSeq := 0 })
    | none => none

section

variable {ε : Type} (w : World ε) (c : Config)

/-- The place of the channel's push record, made if needed. -/
def claimRecord (i : SlotIdx) (ch : UInt16) (s : Sys ε) : Option Nat × Sys ε :=
  match findOrCreatePushRecord (s.slot i).pushRecords ch with
  | none => (none, s)
  | some (k, rs) => (some k, s.modSlot i fun sl => { sl with pushRecords := rs })

def recordAt (s : Sys ε) (i : SlotIdx) (record : Option Nat) : Option PushRecord :=
  record.bind fun k => (s.slot i).pushRecords[k]?

/-- The subscriber has not been sent this sequence number yet. -/
def changePending (seq : UInt16) : Option PushRecord → Bool
  | none => true
  | some r => !r.valid || seqIsNewer seq r.lastSeq

/-- The push of `seq` on `ch` was sent: pacing and record are brought up to date. -/
def notePushed (i : SlotIdx) (ch : UInt16) (seq : UInt16) (record : Option Nat) (nowMs : UInt32) (s : Sys ε) :
    Sys ε :=
  s.modSlot i fun sl =>
    { sl with
      session := { sl.session with subs := sl.session.subs.update ch (·.markPushed nowMs) }
      pushRecords := match record with
        | none => sl.pushRecords
        | some k => sl.pushRecords.modify k fun r => { r with lastSeq := seq, valid := true } }

def ShedDecision.decimation : ShedDecision → Option UInt32
  | .decimate2x => some 2
  | .decimate4x | .conflateHard => some 4
  | _ => none

/-- A decimated push is counted in its record. -/
def countShed (i : SlotIdx) (d : ShedDecision) (record : Option Nat) (s : Sys ε) : Sys ε :=
  match d.decimation, record with
  | some _, some k => s.modSlot i fun sl =>
    { sl with pushRecords := sl.pushRecords.modify k fun r => { r with shedCounter := r.shedCounter + 1 } }
  | _, _ => s

/-- Whether the push goes out; a record counts which of the decimated ones do. -/
def ShedDecision.transmits (d : ShedDecision) (record : Option PushRecord) : Bool :=
  match d, d.decimation, record with
  | .drop, _, _ => false
  | _, some n, some r => r.shedCounter % n == 0
  | _, _, _ => true

/-- Send a due push, or let it go.  Either way it counts as pushed for the pacing. -/
def pushDue (i : SlotIdx) (sub : SubscriptionEntry) (retained : RetainedEntry) (d : ShedDecision)
    (record : Option Nat) (nowMs : UInt32) (s : Sys ε) : Sys ε :=
  let s := countShed i d record s
  if d.transmits (recordAt s i record) then
    let (ok, s) := sendFrameTo w i .state sub.channelId retained.payload retained.seq s
    if ok then notePushed i sub.channelId retained.seq record nowMs s else s
  else s.modSession i fun se => { se with subs := se.subs.update sub.channelId (·.markPushed nowMs) }

/-- One subscription of one slot. -/
def paceOne (i : SlotIdx) (nowMs : UInt32) (s : Sys ε) (sub : SubscriptionEntry) : Sys ε :=
  match c.catalog.find sub.channelId, s.hub.retained.get sub.channelId with
  | some entry, some retained =>
    if entry.cls ≠ .state then s
    else
      let (record, s) := claimRecord i sub.channelId s
      if !sub.dueForPush nowMs (changePending retained.seq (recordAt s i record)) then s
      else
        let d := if !sub.everPushed then ShedDecision.send
          else shedDecision sub.priority entry.cls (s.slot i).congestionLevel entry.isSegmentClass
        pushDue w i sub retained d record nowMs s
  | _, _ => s

/-- Push what is due of every subscription, once the session is ready. -/
def pumpStatePacing (i : SlotIdx) (nowMs : UInt32) (s : Sys ε) : Sys ε :=
  if !(s.session i).ready then s else (s.session i).subs.entries.foldl (paceOne w c i nowMs) s

/-! ## The safety latch -/

def broadcastOne (payload : Bytes) (seq : UInt16) (nowMs : UInt32) (s : Sys ε) (i : SlotIdx) : Sys ε :=
  let se := s.session i
  if !se.occupied || (s.slot i).transport.isNone || !se.ready || (se.subs.find Channels.safety).isNone then s
  else
    let (ok, s) := sendFrameToTracked w c i .state Channels.safety payload nowMs seq s
    if ok then
      let (record, s) := claimRecord i Channels.safety s
      notePushed i Channels.safety seq record nowMs s
    else s

/-- Send the retained safety snapshot to every ready subscriber now. -/
def broadcastSafetyNow (nowMs : UInt32) (s : Sys ε) : Sys ε :=
  match s.hub.retained.get Channels.safety with
  | none => s
  | some r => allSlots.foldl (broadcastOne w c r.payload r.seq nowMs) s

def setSafety (st : SafetyState) (s : Sys ε) : Sys ε := { s with hub := { s.hub with safety := st } }

def SafetyState.estop (st : SafetyState) : Bool := st.word &&& SafetyBits.estop != 0

/-- A repeated ESTOP is broadcast again but latches nothing new. -/
def handleEstopFrame (f : EstopFrame) (nowMs : UInt32) (s : Sys ε) : Sys ε :=
  let before := s.hub.safety.word
  let s :=
    if s.hub.safety.estop then s
    else
      let s := notify w (.onEstop f.cause f.origin) s
      let st := s.hub.safety
      publishSafetySnapshot
        (setSafety { st with word := st.word ||| SafetyBits.estop, cause := f.cause, estopSeq := f.seq } s)
  emitSafetyEdgeEvents w c before nowMs (broadcastSafetyNow w c nowMs s)

def latchEstop (f : EstopFrame) (s : Sys ε) : Sys ε := handleEstopFrame w c f (clockMs w s) s

/-- The host mirrors its override and bypass switches. -/
def setSafetyModes (manualOverride bypassLimits : Bool) (s : Sys ε) : Sys ε :=
  let next := (if manualOverride then SafetyModeBits.override else 0) |||
    (if bypassLimits then SafetyModeBits.bypass else 0)
  if next = s.hub.safety.modes then s
  else
    let s := publishSafetySnapshot (setSafety { s.hub.safety with modes := next } s)
    broadcastSafetyNow w c (clockMs w s) s

/-- What an accepted safety op does to the latch; `none` for an op without a latched representation. -/
def safetyOpLatch (op : UInt8) (sid : UInt32) (st : SafetyState) : Option SafetyState :=
  if op = SafetyOps.stop then
    some { st with word := st.word ||| SafetyBits.stop, cause := SafetyCauses.user, ownerSession := sid }
  else if op = SafetyOps.hold then
    some { st with word := st.word ||| SafetyBits.hold, cause := SafetyCauses.user, ownerSession := sid }
  else if op = SafetyOps.pause then
    some { st with word := st.word ||| SafetyBits.pause, cause := SafetyCauses.user, ownerSession := sid }
  else if op = SafetyOps.resume then
    some { st with word := st.word &&& ~~~(SafetyBits.hold ||| SafetyBits.pause) }
  else if op = SafetyOps.overrideOn then some { st with modes := st.modes ||| SafetyModeBits.override }
  else if op = SafetyOps.overrideOff then some { st with modes := st.modes &&& ~~~SafetyModeBits.override }
  else if op = SafetyOps.bypassOn then some { st with modes := st.modes ||| SafetyModeBits.bypass }
  else if op = SafetyOps.bypassOff then some { st with modes := st.modes &&& ~~~SafetyModeBits.bypass }
  else none

/-- Apply the op's latch; the flag says whether anything observable changed. -/
def applySafetyOpLatch (op : UInt8) (sid : UInt32) (s : Sys ε) : Bool × Sys ε :=
  match safetyOpLatch op sid s.hub.safety with
  | none => (false, s)
  | some st => (st != s.hub.safety, setSafety st s)

/-- Clear the ESTOP bit if the delegate agrees. -/
def clearEstop (s : Sys ε) : Bool × Sys ε :=
  if !s.hub.safety.estop then (false, s)
  else
    let (ok, env) := w.canClearEstop s.env
    let s : Sys ε := { s.log (.canClearEstop ok) with env }
    if !ok then (false, s)
    else
      let before := s.hub.safety.word
      let s := publishSafetySnapshot
        (setSafety { s.hub.safety with word := s.hub.safety.word &&& ~~~SafetyBits.estop } s)
      let nowMs := clockMs w s
      (true, emitSafetyEdgeEvents w c before nowMs (broadcastSafetyNow w c nowMs s))

end

end SlopSync
