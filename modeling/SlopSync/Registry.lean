import Mathlib.Data.Nat.Notation
import Mathlib.Tactic.DeriveFintype

/-! # The protocol registry

The enumerations and limits of `generated/registry_constants.hpp` that the hub and the client read.  The codes
are the wire values; the names are the registry's. -/

namespace SlopSync

/-! ## Frame types, classes and access levels -/

/-- The `type` byte of a frame header. -/
inductive FrameType
  | hello | welcome | ping | pong | clock | subscribe | unsubscribe | grant | state | stream | intent | echo
  | event | nack | goodbye | probe | probeReport | pairReq | pairGrant | ackmask | beacon | publish
  | catalogReady | blobReq | blobChunk | auth | hubSig | discoverProbe | discoverReply | blobDone | estop
  deriving DecidableEq, Repr

/-- The wire byte of a frame type. -/
def FrameType.code : FrameType → UInt8
  | .hello => 0x00 | .welcome => 0x01 | .ping => 0x03 | .pong => 0x04 | .clock => 0x05
  | .subscribe => 0x06 | .unsubscribe => 0x07 | .grant => 0x08 | .state => 0x0B | .stream => 0x0C
  | .intent => 0x0D | .echo => 0x0E | .event => 0x0F | .nack => 0x10 | .goodbye => 0x11
  | .probe => 0x12 | .probeReport => 0x13 | .pairReq => 0x14 | .pairGrant => 0x15 | .ackmask => 0x16
  | .beacon => 0x17 | .publish => 0x18 | .catalogReady => 0x19 | .blobReq => 0x1A | .blobChunk => 0x1B
  | .auth => 0x1C | .hubSig => 0x1D | .discoverProbe => 0x1E | .discoverReply => 0x1F
  | .blobDone => 0x20 | .estop => 0xE5

inductive ChannelClass
  | state | stream | intent | event | store
  deriving DecidableEq, Repr

/-- What a session may do; the hub compares levels by their wire value. -/
inductive AccessLevel
  | watch | control | configure
  deriving DecidableEq, Repr

def AccessLevel.code : AccessLevel → UInt8
  | .watch => 0 | .control => 1 | .configure => 2

/-- The order of the wire values. -/
def AccessLevel.rank : AccessLevel → Nat
  | .watch => 0 | .control => 1 | .configure => 2

instance : LE AccessLevel := ⟨fun a b => a.rank ≤ b.rank⟩
instance : LT AccessLevel := ⟨fun a b => a.rank < b.rank⟩
instance (a b : AccessLevel) : Decidable (a ≤ b) := inferInstanceAs (Decidable (a.rank ≤ b.rank))
instance (a b : AccessLevel) : Decidable (a < b) := inferInstanceAs (Decidable (a.rank < b.rank))

theorem AccessLevel.le_def {a b : AccessLevel} : a ≤ b ↔ a.rank ≤ b.rank := Iff.rfl
theorem AccessLevel.lt_def {a b : AccessLevel} : a < b ↔ a.rank < b.rank := Iff.rfl
theorem AccessLevel.le_refl (a : AccessLevel) : a ≤ a := Nat.le_refl a.rank
theorem AccessLevel.le_trans {a b c : AccessLevel} (h : a ≤ b) (h' : b ≤ c) : a ≤ c := Nat.le_trans h h'
theorem AccessLevel.watch_le (a : AccessLevel) : watch ≤ a := Nat.zero_le a.rank

inductive Priority
  | background | normal | elevated | critical
  deriving DecidableEq, Repr

def Priority.code : Priority → UInt8
  | .background => 0 | .normal => 1 | .elevated => 2 | .critical => 3

/-! ## Refusal codes -/

/-- NACK and GOODBYE reason codes. -/
inductive NackCode
  | malformed | unsupportedVersion | frameTooLarge | profileViolation
  | busy | unauthorized | notController | pairingRequired | pairingDenied | sessionEvicted
  | duplicateInstance | normalClosure | deadmanTimeout | rebooting | readyTimeout | notReady | idleReaped
  | slotReclaimed
  | unknownChannel | accessDenied | classMismatch | subLimit | subscribeRejected
  | conflict | rateLimited | invalidValue | unsupportedOp
  | estopActive | notHomed | interlock | sourceConflict | takeoverRequired | clearRefused
  | chunkUnavailable | reassemblyTimeout | etagMismatch | blobRefused | invalidNamespace
  deriving DecidableEq, Repr

def NackCode.code : NackCode → UInt16
  | .malformed => 0x0000 | .unsupportedVersion => 0x0001 | .frameTooLarge => 0x0002
  | .profileViolation => 0x0003
  | .busy => 0x0100 | .unauthorized => 0x0101 | .notController => 0x0102 | .pairingRequired => 0x0103
  | .pairingDenied => 0x0104 | .sessionEvicted => 0x0105 | .duplicateInstance => 0x0106
  | .normalClosure => 0x0107 | .deadmanTimeout => 0x0108 | .rebooting => 0x0109 | .readyTimeout => 0x010A
  | .notReady => 0x010B | .idleReaped => 0x010C | .slotReclaimed => 0x010D
  | .unknownChannel => 0x0200 | .accessDenied => 0x0201 | .classMismatch => 0x0202 | .subLimit => 0x0203
  | .subscribeRejected => 0x0204
  | .conflict => 0x0300 | .rateLimited => 0x0301 | .invalidValue => 0x0302 | .unsupportedOp => 0x0303
  | .estopActive => 0x0400 | .notHomed => 0x0401 | .interlock => 0x0402 | .sourceConflict => 0x0403
  | .takeoverRequired => 0x0404 | .clearRefused => 0x0405
  | .chunkUnavailable => 0x0500 | .reassemblyTimeout => 0x0501 | .etagMismatch => 0x0502
  | .blobRefused => 0x0503 | .invalidNamespace => 0x0504

/-! ## Well-known channels -/

namespace Channels

def catalog : UInt16 := 0x0001
def safety : UInt16 := 0x0003
def controlOwner : UInt16 := 0x0004
def safetyIntents : UInt16 := 0x0005
def sessionEvents : UInt16 := 0x0007
def log : UInt16 := 0x0008
def sessionAdmin : UInt16 := 0x0009
def pendingPairing : UInt16 := 0x000A
def pairingEvents : UInt16 := 0x000B
def pairedDevices : UInt16 := 0x000C
def pairedDevicesRoster : UInt16 := 0x000D
def safetyEvents : UInt16 := 0x000E

end Channels

/-! ## Map keys of the control messages -/

namespace CborKey

def protoVer : Nat := 1
def clientKind : Nat := 2
def clientName : Nat := 3
def instanceId : Nat := 4
def token : Nat := 5
def sessionId : Nat := 6
def bootId : Nat := 7
def catalogEtag : Nat := 8
def cfgGen : Nat := 9
def subscriptions : Nat := 10
def publishes : Nat := 11
def rateHz : Nat := 12
def priority : Nat := 13
def grantedRateHz : Nat := 14
def channelId : Nat := 15
def code : Nat := 16
def detail : Nat := 17
def intentId : Nat := 18
def applied : Nat := 19
def value : Nat := 20
def timestamp : Nat := 21
def limits : Nat := 22
def roles : Nat := 23
def deadmanMs : Nat := 24
def deadmanPolicy : Nat := 25
def probeResult : Nat := 26
def chunks : Nat := 27
def pinProof : Nat := 28
def nonce : Nat := 29
def precondition : Nat := 30
def retryAfterMs : Nat := 31
def takeover : Nat := 32
def eventKind : Nat := 33
def seqOfState : Nat := 34
def grants : Nat := 35
def grantedPublishes : Nat := 36
def identity : Nat := 37
def blob : Nat := 38
def trust : Nat := 39
def body : Nat := 40
def intentSeq : Nat := 41
def burst : Nat := 42
def deadmanWishMs : Nat := 44
def curveFamily : Nat := 45
def wsPort : Nat := 46
def ipv4 : Nat := 47
def requestedCurveFamily : Nat := 48

end CborKey

/-! ## Discriminators -/

namespace SessionEventKinds
def takeover : UInt8 := 1
def sessionStale : UInt8 := 4
def sessionResumed : UInt8 := 5
end SessionEventKinds

namespace PairingEventKinds
def knocked : UInt8 := 1
def granted : UInt8 := 2
def denied : UInt8 := 3
def expired : UInt8 := 4
def windowOpened : UInt8 := 5
def windowClosed : UInt8 := 6
def revoked : UInt8 := 7
def recognizedPending : UInt8 := 8
end PairingEventKinds

namespace SafetyEventKinds
def estopLatched : UInt8 := 1
def estopCleared : UInt8 := 2
def stopLatched : UInt8 := 3
def stopCleared : UInt8 := 4
end SafetyEventKinds

namespace SafetyOps
def estopClear : UInt8 := 1
def stop : UInt8 := 2
def hold : UInt8 := 3
def pause : UInt8 := 4
def resume : UInt8 := 5
def estop : UInt8 := 6
def overrideOn : UInt8 := 7
def overrideOff : UInt8 := 8
def bypassOn : UInt8 := 9
def bypassOff : UInt8 := 10
end SafetyOps

namespace SessionAdminOps
def evict : UInt8 := 1
def pairApprove : UInt8 := 2
def pairDeny : UInt8 := 3
def revoke : UInt8 := 4
end SessionAdminOps

namespace SafetyCauses
def user : UInt8 := 0
end SafetyCauses

namespace SafetyBits
def estop : UInt8 := 1
def stop : UInt8 := 2
def hold : UInt8 := 4
def pause : UInt8 := 8
end SafetyBits

namespace SafetyModeBits
def override : UInt8 := 1
def bypass : UInt8 := 2
end SafetyModeBits

namespace PairingModes
def knockApprove : UInt8 := 1
def pinProof : UInt8 := 2
def pushToPair : UInt8 := 4
end PairingModes

/-! ## Limits -/

namespace Limits

def headerBytes : Nat := 8
def minTransportPayload : Nat := 242
def catalogChunkPayload : Nat := 192
def bundleMaxSamples : Nat := 32
def bundleMaxSpanMs : Nat := 20
def idempotencyRingDepth : Nat := 32
def intentIngressDefaultPerS : Nat := 50
def streamIngressOverageNackPerS : Nat := 5
def eventQueueDepthPerSubscriber : Nat := 16
def neverShedStallEvictionMs : UInt32 := 2000
def busyRetryAfterDefaultMs : UInt32 := 2000
def pingIntervalIdleMs : UInt32 := 1000
def pingIntervalHoldingControlMs : UInt32 := 200
def hubSigTimeoutMs : UInt32 := 3000
def probeMaxDurationMs : UInt32 := 1500
def estopRepeatIntervalMs : UInt32 := 50
def estopRepeatMax : Nat := 20
def catalogChunkGapTimeoutMs : UInt32 := 500
def deadmanDefaultMs : UInt32 := 600
def deadmanMinMs : UInt32 := 250
def deadmanMaxMs : UInt32 := 5000
def pairingWindowDefaultS : UInt32 := 120
def maxSubscriptionsPerSession : Nat := 64
def maxSubscriptionsPerFrame : Nat := 16
def catalogReadyTimeoutMs : UInt32 := 15000
def idleReapMultiplier : UInt32 := 3
def maxFutureScheduleMs : UInt32 := 250
def maxBurstMultiple : Nat := 4
def pairedDevicesMax : Nat := 8
def trustLedgerMaxBytes : Nat := 1900
def pairingPendingMax : Nat := 4
def clientVerMaxBytes : Nat := 24
def trustLedgerNameMaxBytes : Nat := 16
def trustLedgerKindMaxBytes : Nat := 16
def authAttemptsMax : UInt8 := 3
def logReplayDepthDefault : Nat := 32
def probeDefaultBytes : Nat := 8192
def protocolVersion : UInt8 := 1

end Limits

end SlopSync
