import SlopSync.Codec.Replies

/-! # The other messages

What `Wire.encodeHello`, `encodeWelcome`, `encodeGrant` and `encodeIntent` are to their decoders, the other messages of a
session are to theirs: what one side encodes the other side reads.  The trust sub-map is again what may come between, and
the values of an ECHO or an EVENT arrive as those of an INTENT do. -/

namespace SlopSync

namespace Wire

/-- **What a client asks is what the hub is asked**: a request that fits its buffer is read as it was written, the trust
map of an AUTH as far as its strings are what the decoder wants. -/
theorem requests_arrive (cap : Nat) (bs : Bytes) (hcap : cap < 2 ^ 64) :
    (∀ wishes : List SubscriptionWish, encodeSubscribe wishes cap = some bs → decodeSubscribe bs = .ok wishes) ∧
    (∀ channels : List UInt16, encodeUnsubscribe channels cap = some bs → decodeUnsubscribe bs = .ok channels) ∧
    (∀ wishes : List PublishWish, encodePublish wishes cap = some bs → decodePublish bs = .ok wishes) ∧
    (∀ m : PairReqMsg, encodePairReq m cap = some bs → decodePairReq bs = .ok m) ∧
    (∀ t : TrustMap, encodeTrustEnvelope t cap = some bs → (decodeTrustEnvelope bs = .ok t ↔ t.Readable)) ∧
    (∀ m : BlobReqMsg, encodeBlobReq m cap = some bs → decodeBlobReq bs = .ok m) ∧
    ∀ m : ProbeResult, encodeProbeReport m cap = some bs → decodeProbeReport bs = .ok m := by
  refine ⟨fun _ h => decode_encodeSubscribe hcap h, fun _ h => decode_encodeUnsubscribe hcap h,
    fun _ h => decode_encodePublish hcap h, fun _ h => decode_encodePairReq hcap h, ?_,
    fun _ h => decode_encodeBlobReq hcap h, fun _ h => decode_encodeProbeReport hcap h⟩
  intro t h
  rw [decode_trustEnvelope_iff hcap h]
  exact and_iff_left rfl

/-- the repair of two chunks of a profile store -/
theorem requests_arrive_repair :
    ∃ bs, encodeBlobReq { blob := { ns := 1, storeId := some 4 }, chunks := some [0, 300] } 64 = some bs ∧
      decodeBlobReq bs = .ok { blob := { ns := 1, storeId := some 4 }, chunks := some [0, 300] } :=
  ⟨_, rfl, (requests_arrive 64 _ (by decide)).2.2.2.2.2.1 _ rfl⟩

/-- **What a hub replies is what the client is told**, its values as those of an INTENT arrive, the trust map of a PAIR_GRANT as far
as its strings are what the decoder wants. -/
theorem replies_arrive (cap : Nat) (bs : Bytes) (hcap : cap < 2 ^ 64) :
    (∀ m : EchoMsg, encodeEcho m cap = some bs → decodeEcho bs = .ok m.received) ∧
    (∀ m : EventMsg, encodeEvent m cap = some bs → decodeEvent bs = .ok m.received) ∧
    (∀ m : NackMsg, encodeNack m cap = some bs → decodeNack bs = .ok m.received) ∧
    (∀ m : SlopSync.GoodbyeMsg, encodeGoodbye m cap = some bs → decodeGoodbye bs = .ok m.received) ∧
    ∀ m : SlopSync.PairGrantMsg, encodePairGrant m cap = some bs →
      (decodePairGrant bs = .ok m.received ↔ ∀ t ∈ m.trust, t.any = true → t.Readable) := by
  refine ⟨fun _ h => EchoMsg.decode_encode hcap h, fun _ h => EventMsg.decode_encode hcap h,
    fun _ h => NackMsg.decode_encode hcap h, fun _ h => GoodbyeMsg.decode_encode hcap h, ?_⟩
  intro m h
  rw [PairGrantMsg.decode_iff hcap h]
  simp only [Option.mem_filter_iff, and_imp, and_true]

/-- a refusal with a text -/
theorem replies_arrive_refused :
    ∃ bs, encodeNack { code := .unauthorized, intentId := some 7, detail := some "role" } 64 = some bs ∧
      decodeNack bs = .ok { code := NackCode.unauthorized.code, intentId := some 7, detail := some (textBytes "role") } :=
  ⟨_, rfl, (replies_arrive 64 _ (by decide)).2.2.1 { code := .unauthorized, intentId := some 7, detail := some "role" } rfl⟩

end Wire

end SlopSync
