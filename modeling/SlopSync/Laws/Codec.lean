import SlopSync.Codec.Intent
import SlopSync.Codec.Welcome

/-! # Decoding what was encoded

The encoders of HELLO and WELCOME check every string they write but those of the trust sub-map, which the decoder bounds;
that of GRANT writes any role, and the decoder wants an access level.  Otherwise a message that was encoded decodes to
itself. -/

namespace SlopSync

namespace Wire

/-- **A message that was encoded decodes to itself**, but for a trust map whose strings are not as the decoder wants them
and a role that is no access level. -/
theorem decode_encode_iff (cap : Nat) (bs : Bytes) (hcap : cap < 2 ^ 64) :
    (∀ m : HelloMsg, encodeHello m cap = some bs →
      (decodeHello bs = .ok m.collapse ↔ ∀ t ∈ m.trust, t.any = true → t.Readable)) ∧
    (∀ m : WelcomeMsg, encodeWelcome m cap = some bs →
      (decodeWelcome bs = .ok m.collapse ↔ ∀ t ∈ m.trust, t.any = true → t.Readable)) ∧
    (∀ m : GrantMsg, encodeGrant m cap = some bs →
      (decodeGrant bs = .ok m ↔ ∀ r ∈ m.roles, r ≤ AccessLevel.configure.code)) ∧
    ∀ m : IntentMsg, encodeIntent m cap = some bs → decodeIntent bs = .ok m.collapse := by
  have hfilter : ∀ o : Option TrustMap, (∀ t ∈ o.filter TrustMap.any, t.Readable) ↔
      ∀ t ∈ o, t.any = true → t.Readable := by
    intro o
    simp only [Option.mem_filter_iff, and_imp]
  refine ⟨?_, ?_, ?_, ?_⟩
  · intro m h
    rw [HelloMsg.decode_iff hcap h, ← hfilter]
    exact and_iff_left rfl
  · intro m h
    rw [WelcomeMsg.decode_iff hcap h, ← hfilter]
    exact and_iff_left rfl
  · intro m h
    rw [GrantMsg.decode_iff hcap h]
    exact and_iff_left rfl
  · intro m h
    exact IntentMsg.decode_encode hcap h

def filled (n : Nat) (b : UInt8) : ByteArr n := ⟨List.replicate n b, List.length_replicate⟩

/-- A paired remote that wishes two subscriptions and one stream, and pins its hub. -/
def sessionHello : HelloMsg where
  protoVer := 1
  clientKind := textBytes "remote"
  clientName := textBytes "kitchen"
  instanceId := filled 8 7
  token := some (filled 16 9)
  catalogEtag := some (filled 8 3)
  subscriptions := [⟨0x0100, 0x41200000, 2⟩, ⟨0x0003, 0, 0⟩]
  publishes := [{ channelId := 0x0200, rateHz := 0x40200000, burst := some 0x40800000, curveFamily := some 1 }]
  trust := some { clientVer := some (textBytes "1.4.2"), clientNonce := some (filled 8 5), sigRequest := some true
                  hubPubkey := some (List.replicate 33 2) }
  deadmanWishMs := 3000

def sessionWelcome : WelcomeMsg where
  protoVer := 1
  sessionId := 41
  bootId := 0xDEADBEEF
  catalogEtag := filled 8 3
  cfgGen := 12
  limits := { maxFrame := 512, maxSubscriptions := 16, retainedPending := 2, maxSubscriptionsPerFrame := 8 }
  roles := 1
  deadmanMs := 3000
  deadmanPolicy := 1
  nonce := filled 8 6
  grants := [⟨0x0100, 0x40A00000, 2⟩]
  grantedPublishes := [{ channelId := 0x0200, grantedRateHz := 0x40200000, requestedCurveFamily := some 1 }]
  identity := some { product := textBytes "bench", hubName := textBytes "attic", hubInstanceId := some 77 }
  wsPort := 8080
  ipv4 := 0x0A000001
  trust := some { hubPubkey := some (List.replicate 33 2), welcomeSig := some (List.replicate 72 1), pairingModes := some 3 }

def sessionGrant : GrantMsg where
  roles := some 2
  grants := [⟨0x0100, 0x41200000, 2⟩, ⟨0x0003, 0, 0⟩]
  grantedPublishes := [{ channelId := 0x0200, grantedRateHz := 0x40200000, burst := some 0x40800000, curveFamily := some 1 }]

def sessionIntent (first : IntentValue) : IntentMsg where
  channelId := 0x0101
  intentId := 300
  value := [⟨1, first⟩, ⟨2, .i64 (-5)⟩, ⟨3, .f32 0x3F000000⟩, ⟨4, .bool true⟩, ⟨5, .tstr (textBytes "slow")⟩,
    ⟨6, .bstr [0, 255]⟩]
  precondition := some 12
  takeover := some true

/-- The messages of one session arrive as they were written, but for a 5 that was written as signed. -/
theorem decode_encode_iff_session :
    (∃ bs, encodeHello sessionHello 512 = some bs ∧ decodeHello bs = .ok sessionHello) ∧
    (∃ bs, encodeWelcome sessionWelcome 512 = some bs ∧ decodeWelcome bs = .ok sessionWelcome) ∧
    (∃ bs, encodeGrant sessionGrant 512 = some bs ∧ decodeGrant bs = .ok sessionGrant) ∧
    ∃ bs, encodeIntent (sessionIntent (.i64 5)) 512 = some bs ∧ decodeIntent bs = .ok (sessionIntent (.u64 5)) := by
  obtain ⟨hello, hhello⟩ : ∃ bs, encodeHello sessionHello 512 = some bs :=
    Option.isSome_iff_exists.mp (by decide +kernel)
  obtain ⟨welcome, hwelcome⟩ : ∃ bs, encodeWelcome sessionWelcome 512 = some bs :=
    Option.isSome_iff_exists.mp (by decide +kernel)
  obtain ⟨grant, hgrant⟩ : ∃ bs, encodeGrant sessionGrant 512 = some bs :=
    Option.isSome_iff_exists.mp (by decide +kernel)
  obtain ⟨intent, hintent⟩ : ∃ bs, encodeIntent (sessionIntent (.i64 5)) 512 = some bs :=
    Option.isSome_iff_exists.mp (by decide +kernel)
  refine ⟨⟨hello, hhello, ?_⟩, ⟨welcome, hwelcome, ?_⟩, ⟨grant, hgrant, ?_⟩, intent, hintent, ?_⟩
  · refine ((decode_encode_iff 512 hello (by decide)).1 sessionHello hhello).mpr fun t ht _ => ?_
    obtain rfl := Option.some.inj ht
    exact ⟨by decide +kernel, by decide +kernel, by decide +kernel⟩
  · refine ((decode_encode_iff 512 welcome (by decide)).2.1 sessionWelcome hwelcome).mpr fun t ht _ => ?_
    obtain rfl := Option.some.inj ht
    exact ⟨by decide +kernel, by decide +kernel, by decide +kernel⟩
  · refine ((decode_encode_iff 512 grant (by decide)).2.2.1 sessionGrant hgrant).mpr fun r hr => ?_
    obtain rfl := Option.some.inj hr
    decide
  · have hread := (decode_encode_iff 512 intent (by decide)).2.2.2 (sessionIntent (.i64 5)) hintent
    rwa [show (sessionIntent (.i64 5)).collapse = sessionIntent (.u64 5) by decide +kernel] at hread

/-- Three frames an encoder emits and its own decoder refuses: a HELLO with a version text of 25 bytes, a HELLO with an
empty hub key, a GRANT with role 3. -/
theorem encoded_and_refused :
    (∃ bs, encodeHello { protoVer := 1, clientKind := [], clientName := [], instanceId := .zero 8
                         trust := some { clientVer := some (List.replicate 25 65) } } 64 = some bs ∧
      decodeHello bs = .error .capacityExceeded) ∧
    (∃ bs, encodeHello { protoVer := 1, clientKind := [], clientName := [], instanceId := .zero 8
                         trust := some { hubPubkey := some [] } } 64 = some bs ∧
      decodeHello bs = .error .capacityExceeded) ∧
    ∃ bs, encodeGrant { roles := some 3 } 8 = some bs ∧ decodeGrant bs = .error .malformed := by
  refine ⟨⟨_, rfl, ?_⟩, ⟨_, rfl, ?_⟩, ⟨_, rfl, ?_⟩⟩
  · decide +kernel
  · decide +kernel
  · decide +kernel

end Wire

end SlopSync
