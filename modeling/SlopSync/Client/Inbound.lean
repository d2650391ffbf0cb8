import SlopSync.Messages

/-! # What a client reads

The frames a hub sends, decoded.  A decoder checks sizes and leaves the rest to the client, so that a level or a
priority is the byte that arrived; what a handler does not look at is left out.  A frame that does not decode is a
`none`. -/

namespace SlopSync

namespace Client

/-- An entry of `_grants`, and of the `grants` array of WELCOME and GRANT. -/
structure GrantEntry where
  channelId : UInt16
  rateHz : F32
  priority : UInt8
  deriving DecidableEq, Repr

def kMaxGrants : Nat := 16

/-- The bytes of `hub_pubkey` and `welcome_sig` are never none. -/
abbrev TrustBytes := { bs : Bytes // bs ≠ [] }

structure WelcomeMsg where
  sessionId : UInt32
  bootId : UInt32
  catalogEtag : Etag
  cfgGen : UInt16
  retainedPending : UInt32
  roles : UInt8
  nonce : Nonce
  grants : List GrantEntry := []
  welcomeSig : Option TrustBytes := none
  /-- The decoder refuses more. -/
  bound : grants.length ≤ kMaxGrants := by first | exact Nat.zero_le _ | decide
  deriving DecidableEq

structure GrantMsg where
  grants : List GrantEntry := []
  roles : Option AccessLevel := none
  deriving DecidableEq, Repr

structure NackMsg where
  code : UInt16
  channelId : Option UInt16 := none
  intentId : Option UInt16 := none
  detail : Option Bytes := none
  retryAfterMs : Option UInt32 := none
  intentSeq : Option UInt16 := none
  deriving DecidableEq, Repr

structure PairGrantMsg where
  token : Token
  roles : UInt8
  hubPubkey : Option TrustBytes := none
  deriving DecidableEq

/-- A frame with a header, by type. -/
inductive Inbound
  | welcome (m : Option WelcomeMsg)
  | state (ch seq : UInt16) (payload : Bytes)
  | echo (m : Option EchoMsg)
  | nack (m : Option NackMsg)
  | grant (m : Option GrantMsg)
  | event (ch : UInt16) (payload : Bytes)
  | blobChunk (payload : Bytes)
  | ping (payload : Bytes)
  | pairGrant (m : Option PairGrantMsg)
  /-- The signature, if the frame decodes and carries one. -/
  | hubSig (sig : Option TrustBytes)
  | probe (payload : Bytes)
  | goodbye
  | other
  deriving DecidableEq

/-- What the transport hands up. -/
inductive RxFrame
  | estop
  /-- ESTOP magic with a bad checksum. -/
  | badEstop
  /-- Too short for a header. -/
  | short
  | frame (m : Inbound)
  deriving DecidableEq

end Client

end SlopSync
