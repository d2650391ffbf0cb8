import SlopSync.Catalog
import SlopSync.Intents
import SlopSync.Pairing
import SlopSync.Tables

/-! # The hub-side session record

`session/session.hpp`.  A session is a plain record that is reset between occupants; `occupied` tells a
record in use from a free one. -/

namespace SlopSync

open Keyed

inductive HubSessionState
  | free | validating | granted | live | stale | closed
  deriving DecidableEq, Repr

/-- A granted inbound STREAM channel with its own token bucket. -/
structure PublishGrant where
  channelId : UInt16
  grantedRateHz : F32 := 0
  grantedBurst : F32 := 0
  burstRequested : Bool := false
  limiter : IngressRateLimiter := {}
  everNackedOverage : Bool := false
  lastOverageNackMs : UInt32 := 0
  curveFamily : UInt8 := 0
  deriving DecidableEq, Repr

def kMaxPublishGrants : Nat := 8

/-- The used publish grants, in table order. -/
structure PublishTable where
  grants : List PublishGrant := []
  fits : grants.length ≤ kMaxPublishGrants := by first | exact Nat.zero_le _ | decide
  deriving DecidableEq

namespace PublishTable

def find (t : PublishTable) (ch : UInt16) : Option PublishGrant := t.grants.find? (fun g => g.channelId == ch)

def modify (t : PublishTable) (ch : UInt16) (f : PublishGrant → PublishGrant) : PublishTable where
  grants := modifyFirst (fun g => g.channelId == ch) f t.grants
  fits := by rw [length_modifyFirst]; exact t.fits

def channels (t : PublishTable) : List UInt16 := t.grants.map PublishGrant.channelId

theorem mem_channels {t : PublishTable} {ch : UInt16} : ch ∈ t.channels ↔ (t.find ch).isSome = true := by
  simp [channels, find, List.find?_isSome]

theorem channels_modify (t : PublishTable) (ch : UInt16) {f : PublishGrant → PublishGrant}
    (hf : ∀ g, (f g).channelId = g.channelId) : (t.modify ch f).channels = t.channels :=
  map_modifyFirst hf t.grants

end PublishTable

structure HubSession where
  state : HubSessionState := .free
  sessionId : UInt32 := 0
  instanceId : InstanceId := ByteArr.zero 8
  role : AccessLevel := .watch
  clientKind : KindStr := {}
  clientName : NameStr := {}
  clientVer : VersionStr := {}
  hasClientVer : Bool := false
  presentationMode : UInt8 := 0
  ready : Bool := false
  readyEtagMismatch : Bool := false
  grantedAtMs : UInt32 := 0
  subs : SubscriptionTable := {}
  intentRing : IntentRing := {}
  intentLimiter : IngressRateLimiter := {}
  events : EventQueue := {}
  publishGrants : PublishTable := {}
  streamBundlesAccepted : UInt32 := 0
  streamBundlesDropped : UInt32 := 0
  lastRxMs : UInt32 := 0
  deadmanMs : UInt32 := Limits.deadmanDefaultMs
  staleSinceMs : UInt32 := 0
  deriving DecidableEq

namespace HubSession

def occupied (s : HubSession) : Bool := s.state != .free && s.state != .closed

theorem occupied_iff {s : HubSession} : s.occupied = true ↔ s.state ≠ .free ∧ s.state ≠ .closed := by
  simp [occupied]

/-- Record or overwrite a granted publish; refused when a new channel meets a full table. -/
def addPublishGrant (s : HubSession) (ch : UInt16) (rate : F32) (nowMs : UInt32) (burst : F32)
    (burstRequested : Bool) (curveFamily : UInt8) : Option HubSession :=
  let ratePerSec := if rate.lt (.ofNat 1) then 1 else rate.toUInt32
  let capacity := if F32.lt 0 burst then burst else .ofNat ratePerSec.toNat
  let fill (g : PublishGrant) : PublishGrant :=
    { g with grantedRateHz := rate, grantedBurst := capacity, burstRequested,
             limiter := .make ratePerSec nowMs capacity,
             everNackedOverage := false, lastOverageNackMs := 0, curveFamily }
  if (s.publishGrants.find ch).isSome then some { s with publishGrants := s.publishGrants.modify ch fill }
  else if h : s.publishGrants.grants.length < kMaxPublishGrants then
    some { s with publishGrants :=
      ⟨s.publishGrants.grants ++ [fill { channelId := ch }], by rw [List.length_append]; exact h⟩ }
  else none

/-- A publish grant adds its own channel and no other, and touches nothing else. -/
theorem addPublishGrant_some {s s' : HubSession} {ch : UInt16} {rate burst : F32} {nowMs : UInt32} {b : Bool}
    {family : UInt8} (h : s.addPublishGrant ch rate nowMs burst b family = some s') :
    s' = { s with publishGrants := s'.publishGrants } ∧
      ∀ x ∈ s'.publishGrants.channels, x ∈ s.publishGrants.channels ∨ x = ch := by
  unfold addPublishGrant at h
  dsimp only at h
  split at h
  · cases h
    refine ⟨rfl, fun x hx => .inl ?_⟩
    rw [PublishTable.channels_modify _ ch] at hx
    · exact hx
    · exact fun _ => rfl
  · split at h
    · cases h
      refine ⟨rfl, fun x hx => ?_⟩
      simpa [PublishTable.channels] using hx
    · cases h

end HubSession

end SlopSync
