import SlopSync.HmacSha256
import SlopSync.Ownership
import SlopSync.Session

/-! # The state of the hub

* `Slot` and `Hub` — the records of `hub/hub.hpp`.
* `World` — everything the hub calls out to: transports, clock, random source, cryptography and the
  application delegate.  Each call passes an abstract environment state along, so nothing is assumed about
  what the environment remembers or answers.
* `Sys` — a hub with its environment and the history of its interactions. Every history entry keeps the hub
  state at that instant, so that a statement can talk about the moment of a write or of a delegate call.
-/

namespace SlopSync

/-- A transport object, by identity. -/
abbrev TransportId := Nat

def kHubMaxSessions : Nat := 4

/-- One more physical slot than there may be sessions. -/
abbrev SlotIdx := Fin 5

instance slotCount_ne_zero : NeZero 5 := ⟨by decide⟩

def allSlots : List SlotIdx := [0, 1, 2, 3, 4]

theorem mem_allSlots (i : SlotIdx) : i ∈ allSlots := by
  revert i
  decide

/-- What a subscriber was last sent of a channel.  A record that is not `valid` is a free one. -/
structure PushRecord where
  channelId : UInt16 := 0
  lastSeq : UInt16 := 0
  valid : Bool := false
  shedCounter : UInt32 := 0
  deriving DecidableEq, Repr

/-- A blob transfer spread over several updates. -/
structure PendingBlob where
  id : BlobId
  totalBytes : Nat
  generation : UInt16
  reqSeq : Option UInt16
  chunks : Option (List UInt16)   -- the indices of a selective repair
  nextIndex : UInt16 := 0         -- of a full transfer
  cursor : Nat := 0               -- of a repair
  deriving DecidableEq, Repr

structure Slot where
  transport : Option TransportId := none
  session : HubSession := {}
  pushRecords : List PushRecord := List.replicate Limits.maxSubscriptionsPerSession {}
  nonce : Nonce := ByteArr.zero 8
  clientNonce : Option Nonce := none
  sigRequested : Bool := false
  signPending : Bool := false
  signDelivered : Bool := false
  authFailures : UInt8 := 0
  congestionLevel : UInt8 := 0
  criticalStallSince : Option UInt32 := none
  lastProbeReport : Option ProbeResult := none
  -- source, hub-ms of the last refusal
  conflictNacks : List (Option (UInt8 × UInt32)) := List.replicate kMaxSources none
  blob : Option PendingBlob := none
  deriving DecidableEq

/-- The safety latch. -/
structure SafetyState where
  word : UInt8 := 0
  cause : UInt8 := 0
  ownerSession : UInt32 := 0
  estopSeq : UInt16 := 0
  modes : UInt8 := 0
  deriving DecidableEq, Repr

structure Hub where
  slots : SlotIdx → Slot := fun _ => {}
  retained : RetainedStore := {}
  ownership : SourceOwnershipTable := {}
  pairing : PairingManager := {}
  safety : SafetyState := {}
  cfgGen : UInt16 := 1
  bootId : UInt32 := 0
  monoMs : MonotonicMs := {}
  dispatchSeq : Option UInt16 := none
  logRing : EventReplayRing := {}
  presenceWasOpen : Bool := false
  inlineSigning : Bool := false
  identity : IdentityInfo := {}
  wsPort : UInt16 := 0
  ipv4 : UInt32 := 0

/-- What is fixed when the hub is built. -/
structure Config where
  catalog : Catalog
  etag : Etag
  catalogEncoded : Bytes

/-- The store that serves the trust ledger, if the catalog declares one. -/
def Config.pairedStoreId (c : Config) : Option UInt8 :=
  (c.catalog.find Channels.pairedDevices).bind fun e =>
    if e.cls = .store then e.store.map StoreDescriptor.storeId else none

/-! ## The outside world -/

inductive SourceLossPolicy
  | stop | continues
  deriving DecidableEq, Repr

/-- Calls to the delegate that return nothing. -/
inductive Note
  | onEstop (cause origin : UInt8)
  | onSessionJoined (sid : UInt32)
  | onSessionLeft (sid : UInt32)
  | onDeadmanStop (src : UInt8)
  | onSourceOwnership (src : UInt8) (owner : UInt32) (reason : UInt8)
  | onStreamBundle (ch : UInt16) (sid : UInt32) (bundle : BundleView)
  deriving DecidableEq, Repr

/-- Draw until the value is not zero. -/
def drawNonZero {ε : Type} (next : ε → UInt32 × ε) : Nat → ε → UInt32 × ε
  | 0, e => next e
  | n + 1, e =>
    let (v, e') := next e
    if v = 0 then drawNonZero next n e' else (v, e')

structure World (ε : Type) where
  -- transports
  openTransport : TransportId → ε → Bool × ε
  closeTransport : TransportId → ε → ε
  write : TransportId → Bytes → ε → Bool × ε
  mtu : TransportId → Nat
  -- clock
  nowUs : ε → UInt32
  -- random source; the draws of a session id end
  nextU32 : ε → UInt32 × ε
  fill : (n : Nat) → ε → ByteArr n × ε
  drawFuel : Nat
  draw_ne_zero : ∀ e, (drawNonZero nextU32 drawFuel e).1 ≠ 0
  -- cryptography
  hmac : Token → Nonce → Option Token := softwareHmac
  publicKey : Bytes
  signP256 : Bytes → ε → Bytes × ε
  f32Bits : F32 → UInt32
  -- delegate
  notify : Note → ε → ε
  validateToken : InstanceId → Option Token → ε → AccessLevel × ε
  applyIntent : UInt16 → IntentValueMap → AccessLevel → ε → (Except NackCode IntentValueMap × Bool) × ε
  sourceForChannel : UInt16 → ε → Option UInt8 × ε
  sourcePolicy : UInt8 → ε → SourceLossPolicy × ε
  canClearEstop : ε → Bool × ε
  effectiveCurveFamily : UInt16 → UInt8 → ε → UInt8 × ε
  readBlob : UInt8 → UInt8 → UInt8 → ε → Option (Bytes × UInt16) × ε

/-! ## Interactions -/

inductive BlobEnd
  | delivered | refused | dropped
  deriving DecidableEq, Repr

/-- What happens to a slot's blob transfer. -/
inductive BlobStep
  | requested (pb : PendingBlob)
  /-- The bytes and the generation that a resumption found. -/
  | resumed (view : Option (Bytes × UInt16))
  | ended (how : BlobEnd)
  deriving DecidableEq, Repr

inductive Io
  /-- A frame was taken from the slot's transport. -/
  | read (i : SlotIdx)
  /-- A frame was written to the slot's transport. -/
  | write (i : SlotIdx) (t : TransportId) (type : FrameType) (ch seq : UInt16) (payload : Bytes) (ok : Bool)
  /-- A send found no transport in the slot. -/
  | nullWrite (i : SlotIdx)
  | opened (t : TransportId) (ok : Bool)
  | closed (t : TransportId)
  | note (n : Note)
  | drewSession (sid : UInt32)
  | validateToken (inst : InstanceId) (tok : Option Token) (role : AccessLevel)
  /-- The delegate was asked to apply an intent on `ch`, which it maps to the source `src`. -/
  | applyIntent (i : SlotIdx) (ch : UInt16) (value : IntentValueMap) (src : Option UInt8)
      (res : Except NackCode IntentValueMap)
  | canClearEstop (ok : Bool)
  /-- The slot's session had this intent accepted with this ECHO (`none`: it did not encode). -/
  | accepted (i : SlotIdx) (intentId : UInt16) (echo : Option Bytes)
  /-- A bundle of the slot's session on `ch`, mapped to the source `src`, goes to the delegate. -/
  | delivered (i : SlotIdx) (ch : UInt16) (src : Option UInt8)
  -- what follows happens inside the hub
  /-- An event is offered to the queue of the slot's session. -/
  | offered (i : SlotIdx) (ch : UInt16) (bytes : Bytes)
  /-- The snapshot of a channel is replaced. -/
  | published (ch : UInt16)
  /-- The slot is emptied for a new session, or takes over the session of another. -/
  | seated (i : SlotIdx) (from_ : Option SlotIdx)
  | blob (i : SlotIdx) (step : BlobStep)

structure Sys (ε : Type) where
  hub : Hub
  env : ε
  trace : List (Hub × Io) := []

section

variable {ε : Type}

namespace Sys

/-- Append to the history. -/
def log (s : Sys ε) (io : Io) : Sys ε := { s with trace := (s.hub, io) :: s.trace }

@[simp] abbrev slot (s : Sys ε) (i : SlotIdx) : Slot := s.hub.slots i
@[simp] abbrev session (s : Sys ε) (i : SlotIdx) : HubSession := (s.hub.slots i).session

/-- Change one slot. -/
def modSlot (s : Sys ε) (i : SlotIdx) (f : Slot → Slot) : Sys ε :=
  { s with hub := { s.hub with slots := fun j => if j = i then f (s.hub.slots i) else s.hub.slots j } }

/-- Change one slot's session. -/
def modSession (s : Sys ε) (i : SlotIdx) (f : HubSession → HubSession) : Sys ε :=
  s.modSlot i fun sl => { sl with session := f sl.session }

@[simp] theorem slot_modSlot_self (s : Sys ε) (i : SlotIdx) (f : Slot → Slot) :
    (s.modSlot i f).hub.slots i = f (s.hub.slots i) := by
  simp [modSlot]

theorem session_modSession (s : Sys ε) (i : SlotIdx) (f : HubSession → HubSession) :
    (s.modSession i f).session i = f (s.session i) := by
  rw [session, modSession, slot_modSlot_self]

@[simp] theorem retained_modSlot (s : Sys ε) (i : SlotIdx) (f : Slot → Slot) :
    (s.modSlot i f).hub.retained = s.hub.retained := rfl

@[simp] theorem ownership_modSlot (s : Sys ε) (i : SlotIdx) (f : Slot → Slot) :
    (s.modSlot i f).hub.ownership = s.hub.ownership := rfl

@[simp] theorem pairing_modSlot (s : Sys ε) (i : SlotIdx) (f : Slot → Slot) :
    (s.modSlot i f).hub.pairing = s.hub.pairing := rfl

@[simp] theorem safety_modSlot (s : Sys ε) (i : SlotIdx) (f : Slot → Slot) :
    (s.modSlot i f).hub.safety = s.hub.safety := rfl

@[simp] theorem cfgGen_modSlot (s : Sys ε) (i : SlotIdx) (f : Slot → Slot) :
    (s.modSlot i f).hub.cfgGen = s.hub.cfgGen := rfl

theorem modSlot_modSlot (s : Sys ε) (i : SlotIdx) (f g : Slot → Slot) :
    (s.modSlot i f).modSlot i g = s.modSlot i fun sl => g (f sl) := by
  simp only [modSlot, if_true]
  congr 2
  funext j
  by_cases h : j = i <;> simp [h]

theorem slot_modSlot_ne (s : Sys ε) {i j : SlotIdx} (h : j ≠ i) (f : Slot → Slot) :
    (s.modSlot i f).hub.slots j = s.hub.slots j := by
  simp [modSlot, h]

end Sys

/-- Tell the delegate. -/
def notify (w : World ε) (n : Note) (s : Sys ε) : Sys ε :=
  { s.log (.note n) with env := w.notify n s.env }

end

end SlopSync
