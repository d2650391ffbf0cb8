import SlopSync.Circular
import SlopSync.Hub.State

/-! # The WebSocket port of the bench

`net/WsServerPort.cpp`.  Each connection has a thread of its own, on which its callbacks come one after the other; the hub
has one thread.  They meet in the slots, each under its lock, and in the table of the connections, under another: what is
between the locks of a callback is one step, and the threads take their steps in any order. -/

namespace SlopSync.SlopBench.Ws

def kRxRingDepth : Nat := 8
def kStallEvictMs : UInt32 := 2000
def kMuteBufferedBytes : Nat := 64 * 1024
def kSlots : Nat := kHubMaxSessions + 1

/-! ## A slot -/

/-- `SlopBenchWsTransport`, where `κ` are the connections.  The `head` of the ring is `_rxTail`, and its `tail` is
`_rxHead`. -/
structure Transport (κ : Type) where
  ws : Option κ := none
  inUse : Bool := false
  openEvt : Bool := false
  closeEvt : Bool := false
  rx : Circular Bytes kRxRingDepth := .empty []
  rxDrops : UInt32 := 0
  muted : Bool := false
  mutedSinceMs : UInt32 := 0

namespace Transport

variable {κ : Type} (t : Transport κ)

/-- Nothing is in use; the slots keep what they held. -/
def cleared (r : Circular Bytes kRxRingDepth) : Circular Bytes kRxRingDepth where
  slots := r.slots
  head := 0
  tail := 0
  count := 0
  fits := Nat.zero_le _
  wraps := Nat.zero_mod _
  meets := (Nat.zero_mod _).symm

def onOpen (k : κ) : Transport κ :=
  { t with
    ws := some k, inUse := true, openEvt := true, closeEvt := false, muted := false, rx := cleared t.rx, rxDrops := 0 }

def onClose : Transport κ := { t with ws := none, closeEvt := true }

/-- The frame is one that a buffer holds. -/
def takes (data : Bytes) : Bool := data.length != 0 && decide (data.length ≤ kFrameBufferCapacity)

def pushRx (data : Bytes) : Transport κ :=
  if takes data = false then t
  else if h : t.rx.count = kRxRingDepth then { t with muted := false, rxDrops := t.rxDrops + 1 }
  else { t with muted := false, rx := t.rx.put (fun _ => data) (Nat.lt_of_le_of_ne t.rx.fits h) }

/-- Whether the frame was sent.  `buffered` is what the socket has not sent yet, and `success` what it says of the frame. -/
def write (nowMs : UInt32) (buffered : Nat) (success : Bool) : Bool × Transport κ :=
  if t.ws.isNone || t.muted then (false, t)
  else if kMuteBufferedBytes < buffered then (false, { t with muted := true, mutedSinceMs := nowMs })
  else if success then (true, t)
  else (false, { t with muted := true, mutedSinceMs := nowMs })

def read : Option Bytes × Transport κ :=
  if h : 0 < t.rx.count then (some (t.rx.nth ⟨0, h⟩), { t with rx := t.rx.dropOldest h }) else (none, t)

def consumeOpenEvent : Bool × Transport κ := (t.openEvt, { t with openEvt := false })

def consumeCloseEvent : Bool × Transport κ := (t.closeEvt, { t with closeEvt := false })

def reap : Transport κ := { t with inUse := false, rx := cleared t.rx, muted := false }

end Transport

/-! ## The threads -/

/-- Where the thread of a connection is. -/
inductive Phase
  | fresh
  | scanning (slot : Nat)   -- the table locked, before it looks at this slot
  | found (slot : Fin kSlots)
  | turnedAway
  | serving
  | pushing (slot : Fin kSlots) (data : Bytes)
  | erasing                 -- the slot told of the close, the table still locked
  | closed
  deriving DecidableEq

/-- Where the hub is in `loop`. -/
inductive HubAt
  | idle
  | openEvent (slot : Fin kSlots)
  | offer (slot : Fin kSlots)
  | closeEvent (slot : Fin kSlots)
  | reap (slot : Fin kSlots)
  | stall (slot : Fin kSlots)
  deriving DecidableEq

/-- A slot and `_attached` of it.  Who has it, and for whom the hub attached it, is not known to the program. -/
structure Slot (κ : Type) where
  transport : Transport κ := {}
  attached : Bool := false
  owner : Option κ := none
  session : Option κ := none

/-- A connection and its entry in `_slotById`.  What went on is counted from the outside. -/
structure Conn where
  phase : Phase := .fresh
  slotById : Option (Fin kSlots) := none
  asked : Bool := false         -- `close` was called on its socket
  sent : List Bytes := []       -- the frames its thread pushed that a buffer holds
  dropped : Nat := 0            -- those that found the ring full
  got : List Bytes := []        -- what the hub read from a slot attached for it
  wrote : List Bytes := []      -- what the hub wrote to such a slot, and was told went out
  out : List Bytes := []        -- what went out on its socket
  offered : Nat := 0            -- how often the hub was asked to attach it

structure World (κ : Type) where
  slots : Fin kSlots → Slot κ := fun _ => {}
  conns : κ → Conn := fun _ => {}
  holder : Option κ := none     -- who has locked the table
  hubAt : HubAt := .idle
  nowMs : UInt32 := 0

inductive Op (κ : Type)
  | connect (k : κ)
  | scan (k : κ)
  | accept (k : κ)
  | receive (k : κ) (data : Bytes)
  | push (k : κ)
  | disconnect (k : κ)
  | erase (k : κ)
  | loop (nowMs : UInt32)
  | hub (admits : Bool)
  | read (slot : Fin kSlots)
  | write (slot : Fin kSlots) (frame : Bytes) (buffered : Nat) (success : Bool)
  | close (slot : Fin kSlots)

namespace World

variable {κ : Type} [DecidableEq κ] (w : World κ)

def setSlot (i : Fin kSlots) (s : Slot κ) : World κ := { w with slots := Function.update w.slots i s }

def setTransport (i : Fin kSlots) (t : Transport κ) : World κ := w.setSlot i { w.slots i with transport := t }

def setConn (k : κ) (c : Conn) : World κ := { w with conns := Function.update w.conns k c }

def mapConn (o : Option κ) (f : Conn → Conn) : World κ := o.elim w fun k => w.setConn k (f (w.conns k))

/-! ### Callbacks -/

/-- The callback of an open begins where no other has the table. -/
def connect (k : κ) : World κ :=
  if (w.conns k).phase = .fresh ∧ w.holder = none then
    { w.setConn k { w.conns k with phase := .scanning 0 } with holder := some k }
  else w

/-- The next slot, or none is left. -/
def scan (k : κ) : World κ :=
  match (w.conns k).phase with
  | .scanning n =>
    if h : n < kSlots then
      w.setConn k { w.conns k with
        phase := if (w.slots ⟨n, h⟩).transport.inUse then .scanning (n + 1) else .found ⟨n, h⟩ }
    else { w.setConn k { w.conns k with phase := .turnedAway, asked := true } with holder := none }
  | _ => w

def accept (k : κ) : World κ :=
  match (w.conns k).phase with
  | .found i =>
    { (w.setSlot i { w.slots i with transport := (w.slots i).transport.onOpen k, owner := some k }).setConn k
        { w.conns k with phase := .serving, slotById := some i } with holder := none }
  | _ => w

/-- A binary message: what the table says of the connection, and the table is free again. -/
def receive (k : κ) (data : Bytes) : World κ :=
  if (w.conns k).phase = .serving ∧ w.holder = none then
    (w.conns k).slotById.elim w fun i => w.setConn k { w.conns k with phase := .pushing i data }
  else w

def push (k : κ) : World κ :=
  match (w.conns k).phase with
  | .pushing i data =>
    let t := (w.slots i).transport
    (w.setTransport i (t.pushRx data)).setConn k { w.conns k with
      phase := .serving
      sent := (w.conns k).sent ++ if Transport.takes data then [data] else []
      dropped := (w.conns k).dropped + if Transport.takes data && t.rx.count == kRxRingDepth then 1 else 0 }
  | _ => w

def disconnect (k : κ) : World κ :=
  if ((w.conns k).phase = .serving ∨ (w.conns k).phase = .turnedAway) ∧ w.holder = none then
    match (w.conns k).slotById with
    | some i =>
      { (w.setTransport i (w.slots i).transport.onClose).setConn k { w.conns k with phase := .erasing } with
        holder := some k }
    | none => w.setConn k { w.conns k with phase := .closed }
  else w

def erase (k : κ) : World κ :=
  if (w.conns k).phase = .erasing then
    { w.setConn k { w.conns k with phase := .closed, slotById := none } with holder := none }
  else w

/-! ### The hub -/

/-- `requestClose`. -/
def requestClose (i : Fin kSlots) : World κ := w.mapConn (w.slots i).transport.ws fun c => { c with asked := true }

def loop (nowMs : UInt32) : World κ :=
  if w.hubAt = .idle then { w with nowMs, hubAt := .openEvent ⟨0, by decide⟩ } else w

/-- The slot has been dealt with. -/
def next (i : Fin kSlots) : HubAt := if h : i.val + 1 < kSlots then .openEvent ⟨i.val + 1, h⟩ else .idle

/-- The next step of `loop`; `admits` is what `attachTransport` answers. -/
def hub (admits : Bool) : World κ :=
  match w.hubAt with
  | .idle => w
  | .openEvent i =>
    let (opened, t) := (w.slots i).transport.consumeOpenEvent
    { w.setTransport i t with hubAt := if opened then .offer i else .closeEvent i }
  | .offer i =>
    let w := { w.mapConn (w.slots i).owner fun c => { c with offered := c.offered + 1 } with hubAt := .closeEvent i }
    if admits then w.setSlot i { w.slots i with attached := true, session := (w.slots i).owner } else w.requestClose i
  | .closeEvent i =>
    let (closed, t) := (w.slots i).transport.consumeCloseEvent
    if closed then
      { w.setSlot i { w.slots i with transport := t, attached := false, session := none } with hubAt := .reap i }
    else { w with hubAt := .stall i }
  | .reap i =>
    { w.setSlot i { w.slots i with transport := (w.slots i).transport.reap, owner := none } with hubAt := .stall i }
  | .stall i =>
    let s := w.slots i
    let w := { w with hubAt := next i }
    if s.attached && s.transport.muted && decide (kStallEvictMs < w.nowMs - s.transport.mutedSinceMs) then
      w.requestClose i
    else w

/-- The hub reads what it has attached. -/
def read (i : Fin kSlots) : World κ :=
  if (w.slots i).attached then
    let (frame, t) := (w.slots i).transport.read
    (w.setTransport i t).mapConn (w.slots i).session fun c => { c with got := c.got ++ frame.toList }
  else w

def write (i : Fin kSlots) (frame : Bytes) (buffered : Nat) (success : Bool) : World κ :=
  if (w.slots i).attached then
    let (ok, t) := (w.slots i).transport.write w.nowMs buffered success
    let frames := if ok then [frame] else []
    ((w.setTransport i t).mapConn (w.slots i).session fun c => { c with wrote := c.wrote ++ frames }).mapConn
      (w.slots i).transport.ws fun c => { c with out := c.out ++ frames }
  else w

def step (w : World κ) : Op κ → World κ
  | .connect k => w.connect k
  | .scan k => w.scan k
  | .accept k => w.accept k
  | .receive k data => w.receive k data
  | .push k => w.push k
  | .disconnect k => w.disconnect k
  | .erase k => w.erase k
  | .loop nowMs => w.loop nowMs
  | .hub admits => w.hub admits
  | .read i => w.read i
  | .write i frame buffered success => w.write i frame buffered success
  | .close i => w.requestClose i

end World

end SlopSync.SlopBench.Ws
