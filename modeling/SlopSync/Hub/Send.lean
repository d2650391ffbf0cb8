import SlopSync.Hub.State

/-! # Sending

`sendFrameTo` and `sendNack` of `hub/hub_impl.hpp`, and `pumpEventDrain` / `publishEvent` with the events the
hub raises itself.  None of these tracks whether the link is stalled. -/

namespace SlopSync

section

variable {ε : Type} (w : World ε)

/-- Write one frame to the slot's transport; the answer is the transport's. -/
def sendFrameTo (i : SlotIdx) (type : FrameType) (ch : UInt16) (payload : Bytes) (seq : UInt16) (s : Sys ε) :
    Bool × Sys ε :=
  match (s.slot i).transport with
  | none => (false, s.log (.nullWrite i))
  | some t =>
    match encodeFrame type ch seq payload with
    | none => (false, s)
    | some bytes =>
      let (ok, env) := w.write t bytes s.env
      (ok, { s.log (.write i t type ch seq payload ok) with env })

/-- Stamp the sequence number of the frame being dispatched. -/
def stampNack (h : Hub) (n : NackMsg) : NackMsg :=
  if n.intentSeq.isNone then { n with intentSeq := h.dispatchSeq } else n

/-- Send an encoded message, if it encoded. -/
def sendEncoded (i : SlotIdx) (type : FrameType) (payload : Option Bytes) (s : Sys ε) : Sys ε :=
  match payload with
  | none => s
  | some bytes => (sendFrameTo w i type 0 bytes 0 s).2

def sendNack (i : SlotIdx) (n : NackMsg) (s : Sys ε) : Sys ε :=
  sendEncoded w i .nack (encodeNack (stampNack s.hub n) 128) s

/-- A best-effort GOODBYE. -/
def sendGoodbye (i : SlotIdx) (code : NackCode) (s : Sys ε) : Sys ε :=
  match encodeGoodbye { code } 64, (s.slot i).transport with
  | some bytes, some _ => (sendFrameTo w i .goodbye 0 bytes 0 s).2
  | _, _ => s

/-! ## Events -/

/-- Pop one queued event and send it. -/
def drainOne (i : SlotIdx) (s : Sys ε) (ev : QueuedEvent) : Sys ε :=
  let s := s.modSession i fun se =>
    { se with events := match se.events.pop with
      | none => se.events
      | some (_, rest) => rest }
  (sendFrameTo w i .event ev.channelId ev.bytes 0 s).2

/-- Send everything queued, oldest first, once the session is ready. -/
def pumpEventDrain (i : SlotIdx) (s : Sys ε) : Sys ε :=
  if !(s.session i).ready || (s.slot i).transport.isNone then s
  else (s.session i).events.queued.foldl (drainOne w i) s

/-- The slot's session takes events of `ch`. -/
def subscribed (h : Hub) (ch : UInt16) (i : SlotIdx) : Bool :=
  (h.slots i).session.occupied && ((h.slots i).session.subs.find ch).isSome

/-- Offer one event to the session's queue. -/
def offerEvent (i : SlotIdx) (ch : UInt16) (s : Sys ε) (bytes : Bytes) : Sys ε :=
  (s.log (.offered i ch bytes)).modSession i fun se => { se with events := se.events.push ch bytes }

def pushEvent (ch : UInt16) (bytes : Bytes) (s : Sys ε) (i : SlotIdx) : Sys ε :=
  if subscribed s.hub ch i then offerEvent i ch s bytes else s

def drainOccupied (s : Sys ε) (i : SlotIdx) : Sys ε :=
  if (s.session i).occupied then pumpEventDrain w i s else s

def anySubscribed (h : Hub) (ch : UInt16) : Bool := allSlots.any (subscribed h ch)

/-- Queue an encoded event for every subscriber, then drain all queues. -/
def publishEvent (ch : UInt16) (bytes : Bytes) (s : Sys ε) : Sys ε :=
  if anySubscribed s.hub ch then allSlots.foldl (drainOccupied w) (allSlots.foldl (pushEvent ch bytes) s) else s

/-- Encode into a buffer of `cap` bytes and publish; an event that does not fit is not published. -/
def publishEncoded (ev : EventMsg) (cap : Nat) (s : Sys ε) : Sys ε :=
  match encodeEvent ev cap with
  | none => s
  | some bytes => publishEvent w ev.channelId bytes s

def emitTakeoverEvent (src : UInt8) (newOwner nowMs : UInt32) (s : Sys ε) : Sys ε :=
  if anySubscribed s.hub Channels.sessionEvents then
    publishEncoded w
      { channelId := Channels.sessionEvents, timestamp := nowMs, eventKind := SessionEventKinds.takeover.toUInt16
        body := some [⟨1, .u64 src.toUInt64⟩, ⟨2, .u64 newOwner.toUInt64⟩] } 64 s
  else s

def emitSessionEvent (kind : UInt8) (sid nowMs : UInt32) (s : Sys ε) : Sys ε :=
  if anySubscribed s.hub Channels.sessionEvents then
    publishEncoded w
      { channelId := Channels.sessionEvents, timestamp := nowMs, eventKind := kind.toUInt16
        body := some [⟨1, .u64 sid.toUInt64⟩] } 32 s
  else s

section

variable (c : Config)

/-- The body of a pairing event; empty texts and ids are left out. -/
def pairingBody (inst : Bytes) (name : Bytes) (mode : UInt8) (role : AccessLevel) (version : Bytes) :
    IntentValueMap :=
  (if inst.isEmpty then [] else [⟨1, .bstr inst⟩]) ++ (if name.isEmpty then [] else [⟨2, .tstr name⟩]) ++
    [⟨3, .u64 mode.toUInt64⟩, ⟨4, .u64 role.code.toUInt64⟩] ++
    (if version.isEmpty then [] else [⟨5, .tstr version⟩])

def emitPairingEvent (kind : UInt8) (inst name : Bytes) (mode : UInt8) (role : AccessLevel) (version : Bytes)
    (nowMs : UInt32) (s : Sys ε) : Sys ε :=
  if (c.catalog.find Channels.pairingEvents).isNone then s
  else publishEncoded w
    { channelId := Channels.pairingEvents, timestamp := nowMs, eventKind := kind.toUInt16
      body := some (pairingBody inst name mode role version) } 160 s

/-- One edge of the safety word. -/
def emitSafetyEdge (kind level : UInt8) (nowMs : UInt32) (s : Sys ε) : Sys ε :=
  let st := s.hub.safety
  publishEncoded w
    { channelId := Channels.safetyEvents, timestamp := nowMs, eventKind := kind.toUInt16
      seqOfState := (s.hub.retained.get Channels.safety).map RetainedEntry.seq
      body := some ([⟨1, .u64 st.word.toUInt64⟩, ⟨2, .u64 st.cause.toUInt64⟩,
        ⟨3, .u64 st.ownerSession.toUInt64⟩, ⟨4, .u64 st.estopSeq.toUInt64⟩] ++
        (if level = 0 then [] else [⟨5, .u64 level.toUInt64⟩])) } 96 s

def emitWhen (p : Bool) (kind level : UInt8) (nowMs : UInt32) (s : Sys ε) : Sys ε :=
  if p then emitSafetyEdge w kind level nowMs s else s

/-- Edges only: nothing is emitted when the word did not change. -/
def emitSafetyEdgeEvents (before : UInt8) (nowMs : UInt32) (s : Sys ε) : Sys ε :=
  if (c.catalog.find Channels.safetyEvents).isNone then s
  else
    let after := s.hub.safety.word
    if after = before then s
    else
      let stopBits := SafetyBits.stop ||| SafetyBits.hold ||| SafetyBits.pause
      let newlySet := after &&& ~~~before
      let newlyClear := before &&& ~~~after
      let s := emitWhen w (newlySet &&& SafetyBits.estop != 0) SafetyEventKinds.estopLatched 0 nowMs s
      let s := emitWhen w (newlyClear &&& SafetyBits.estop != 0) SafetyEventKinds.estopCleared 0 nowMs s
      let s := emitWhen w (newlySet &&& stopBits != 0) SafetyEventKinds.stopLatched (newlySet &&& stopBits) nowMs s
      emitWhen w (newlyClear &&& stopBits != 0) SafetyEventKinds.stopCleared (newlyClear &&& stopBits) nowMs s

end

end

end SlopSync
