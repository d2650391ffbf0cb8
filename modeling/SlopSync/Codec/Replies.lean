import SlopSync.Client.Inbound
import SlopSync.Codec.Intent
import SlopSync.Codec.Nack
import SlopSync.Codec.Requests

/-! # What a hub replies

`wire/messages/echo.hpp`, `event.hpp`, `nack.hpp`, `goodbye.hpp` and `pair.hpp` (PAIR_GRANT).  The decoders are the
client's: a code that no one knows is still a code, an access level is the byte that arrived. -/

namespace SlopSync

open CborWriter CborReader CborDecoder

/-- Pairs with optional fields between them, as a tree the writer can be asked for. -/
theorem typed_values {o : Option IntentValueMap} (h : ∀ b ∈ o, b.length ≤ kIntentMaxValueFields) (k : Nat) :
    ∀ p ∈ optPair k o (fun b => .map (valuePairs b)), Typed p.2 := by
  rw [forall_mem_optPair]
  exact fun b hb => typed_valuePairs (h b hb)

theorem emit_valuePairs (b : IntentValueMap) (w : CborWriter) :
    emit (.map (valuePairs b)) w = encodeValueFields (w.mapHeader b.length) b := by
  rw [encodeValueFields_emit, emit, valuePairs, List.length_map]

/-! ## ECHO -/

structure EchoFields where
  intentId : Option UInt16 := none
  cfgGen : Option UInt16 := none
  applied : Option IntentValueMap := none
  deriving DecidableEq, Repr

namespace EchoFields

/-- The value of a key; unknown ones are skipped. -/
def field (k : Nat) (f : EchoFields) : CborDecoder EchoFields :=
  if k = CborKey.cfgGen then uint.map fun v => { f with cfgGen := some v.toUInt16 }
  else if k = CborKey.intentId then uint.map fun v => { f with intentId := some v.toUInt16 }
  else if k = CborKey.applied then intentValueMap.map fun v => { f with applied := some v }
  else skip f

def msg (f : EchoFields) : Except DecodeError EchoMsg :=
  match f.intentId, f.cfgGen, f.applied with
  | some intentId, some cfgGen, some applied => .ok { intentId, cfgGen, applied }
  | _, _, _ => .error .malformed

end EchoFields

/-- The keys read must make an ECHO. -/
def decodeEcho (bs : Bytes) : Except DecodeError EchoMsg := do
  let f ← (record {} EchoFields.field).run bs
  f.msg

namespace EchoMsg

def tree (m : EchoMsg) : CborTree :=
  .map [(CborKey.cfgGen, .u16 m.cfgGen), (CborKey.intentId, .u16 m.intentId), (CborKey.applied, .map (valuePairs m.applied))]

/-- What is left of an ECHO on the wire. -/
def received (m : EchoMsg) : EchoMsg := { m with applied := collapseValues m.applied }

theorem decode_encode {m : EchoMsg} {cap : Nat} {bs : Bytes} (hcap : cap < 2 ^ 64) (h : encodeEcho m cap = some bs) :
    decodeEcho bs = .ok m.received := by
  unfold encodeEcho at h
  split_ifs at h with hlen
  have hlen := not_lt.mp hlen
  have hemit : (emit m.tree { cap }).result = some bs := by
    rw [← h, tree]
    simp only [emit, emitPairs_cons, emitPairs_nil, encodeValueFields_emit, valuePairs, List.length_map]
    rfl
  have htyped : Typed m.tree := by
    refine .map (by simp) ?_ ?_
    · simp [CborKey.cfgGen, CborKey.intentId, CborKey.applied]
    · simp only [List.forall_mem_cons]
      exact ⟨typed_u16 _, typed_u16 _, typed_valuePairs hlen, by simp⟩
  have hof : (record {} EchoFields.field).ofTree m.tree =
      some ⟨some m.intentId, some m.cfgGen, some (collapseValues m.applied)⟩ := by
    rw [tree, record_ofTree]
    simp +decide [EchoFields.field, intentValueMap_ofTree hlen]
  exact decode_emit htyped hcap hemit hof rfl

end EchoMsg

/-! ## EVENT -/

structure EventFields where
  channelId : Option UInt16 := none
  timestamp : Option UInt32 := none
  eventKind : Option UInt16 := none
  seqOfState : Option UInt16 := none
  body : Option IntentValueMap := none
  deriving DecidableEq, Repr

namespace EventFields

def field (k : Nat) (f : EventFields) : CborDecoder EventFields :=
  if k = CborKey.channelId then uint.map fun v => { f with channelId := some v.toUInt16 }
  else if k = CborKey.body then intentValueMap.map fun v => { f with body := some v }
  else if k = CborKey.timestamp then uint.map fun v => { f with timestamp := some v.toUInt32 }
  else if k = CborKey.eventKind then uint.map fun v => { f with eventKind := some v.toUInt16 }
  else if k = CborKey.seqOfState then uint.map fun v => { f with seqOfState := some v.toUInt16 }
  else skip f

def msg (f : EventFields) : Except DecodeError EventMsg :=
  match f.channelId, f.timestamp, f.eventKind with
  | some channelId, some timestamp, some eventKind =>
    .ok { channelId, timestamp, eventKind, seqOfState := f.seqOfState, body := f.body }
  | _, _, _ => .error .malformed

end EventFields

/-- The keys read must make an EVENT. -/
def decodeEvent (bs : Bytes) : Except DecodeError EventMsg := do
  let f ← (record {} EventFields.field).run bs
  f.msg

namespace EventMsg

def pairs (m : EventMsg) : List (Nat × CborTree) :=
  [(CborKey.channelId, .u16 m.channelId), (CborKey.timestamp, .u32 m.timestamp), (CborKey.eventKind, .u16 m.eventKind)] ++
    optPair CborKey.seqOfState m.seqOfState .u16 ++ optPair CborKey.body m.body fun b => .map (valuePairs b)

/-- What is left of an EVENT on the wire. -/
def received (m : EventMsg) : EventMsg := { m with body := m.body.map collapseValues }

theorem decode_encode {m : EventMsg} {cap : Nat} {bs : Bytes} (hcap : cap < 2 ^ 64) (h : encodeEvent m cap = some bs) :
    decodeEvent bs = .ok m.received := by
  unfold encodeEvent at h
  split_ifs at h with hlen
  have hlen : ∀ b ∈ m.body, b.length ≤ kIntentMaxValueFields := by
    intro b hb
    rw [Option.mem_def.mp hb] at hlen
    simpa using hlen
  have hemit : (emit (.map m.pairs) { cap }).result = some bs := by
    rw [← h, emit]
    simp only [pairs, List.length_append, length_optPair, List.length_cons, List.length_nil, emitPairs_append,
      emitPairs_optPair, emit_valuePairs, Nat.add_right_comm]
    rfl
  have htyped : Typed (.map m.pairs) := by
    have h₁ := optCount_le m.seqOfState
    have h₂ := optCount_le m.body
    refine .map ?_ ?_ ?_
    · simp only [pairs, List.length_append, length_optPair, List.length_cons, List.length_nil]
      omega
    · simp only [pairs, List.forall_mem_append, forall_mem_optPair, List.forall_mem_cons]
      simp [CborKey.channelId, CborKey.timestamp, CborKey.eventKind, CborKey.seqOfState, CborKey.body]
    · simp only [pairs, List.append_assoc, List.forall_mem_append, List.forall_mem_cons]
      refine ⟨⟨typed_u16 _, typed_u32 _, typed_u16 _, by simp⟩, ?_, typed_values hlen _⟩
      exact forall_mem_optPair.mpr fun v _ => typed_u16 v
  have hof : (record {} EventFields.field).ofTree (.map m.pairs) =
      some ⟨some m.channelId, some m.timestamp, some m.eventKind, m.seqOfState, m.body.map collapseValues⟩ := by
    rw [record_ofTree]
    simp only [pairs, List.append_assoc]
    rw [foldlM_resume { channelId := some m.channelId, timestamp := some m.timestamp, eventKind := some m.eventKind } (by
        simp +decide [EventFields.field]),
      foldlM_optPair (fun f o => { f with seqOfState := o }) id rfl (by simp +decide [EventFields.field]),
      foldlM_optPair_last (fun f o => { f with body := o }) collapseValues rfl (by
        intro b hb
        simp +decide [EventFields.field, intentValueMap_ofTree (hlen b hb)])]
    simp
  exact decode_emit htyped hcap hemit hof rfl

end EventMsg

/-! ## NACK and GOODBYE -/

structure NackFields where
  code : Option UInt16 := none
  channelId : Option UInt16 := none
  intentId : Option UInt16 := none
  detail : Option Bytes := none
  retryAfterMs : Option UInt32 := none
  intentSeq : Option UInt16 := none
  deriving DecidableEq, Repr

namespace NackFields

def field (k : Nat) (f : NackFields) : CborDecoder NackFields :=
  if k = CborKey.channelId then uint.map fun v => { f with channelId := some v.toUInt16 }
  else if k = CborKey.code then u16.map fun v => { f with code := some v }
  else if k = CborKey.detail then (text kNackMaxDetailBytes).map fun v => { f with detail := some v }
  else if k = CborKey.intentId then uint.map fun v => { f with intentId := some v.toUInt16 }
  else if k = CborKey.retryAfterMs then uint.map fun v => { f with retryAfterMs := some v.toUInt32 }
  else if k = CborKey.intentSeq then u16.map fun v => { f with intentSeq := some v }
  else skip f

def msg (f : NackFields) : Except DecodeError Client.NackMsg :=
  match f.code with
  | some code => .ok { code, channelId := f.channelId, intentId := f.intentId, detail := f.detail
                       retryAfterMs := f.retryAfterMs, intentSeq := f.intentSeq }
  | none => .error .malformed

end NackFields

/-- The keys read must make a NACK. -/
def decodeNack (bs : Bytes) : Except DecodeError Client.NackMsg := do
  let f ← (record {} NackFields.field).run bs
  f.msg

/-- The same cap as for a NACK. -/
def kGoodbyeMaxDetailBytes : Nat := kNackMaxDetailBytes

/-- The text of a refusal is as long as it may be. -/
theorem detail_fits {detail : Option String}
    (h : ¬detail.any (fun d => decide (kNackMaxDetailBytes < (textBytes d).length)) = true) :
    ∀ d ∈ detail.map textBytes, d.length ≤ kNackMaxDetailBytes := by
  intro d hd
  obtain ⟨s, rfl, rfl⟩ := Option.map_eq_some_iff.mp hd
  simpa using h

theorem optKey_map {α β : Type} (w : CborWriter) (k : Nat) (o : Option α) (g : α → β) (f : CborWriter → β → CborWriter) :
    w.optKey k (o.map g) f = w.optKey k o fun w a => f w (g a) := by
  cases o <;> rfl

theorem optCount_map {α β : Type} (o : Option α) (g : α → β) : optCount (o.map g) = optCount o := by
  cases o <;> rfl

namespace NackMsg

/-- What the client is told. -/
def received (m : NackMsg) : Client.NackMsg :=
  { code := m.code.code, channelId := m.channelId, intentId := m.intentId, detail := m.detail.map textBytes
    retryAfterMs := m.retryAfterMs, intentSeq := m.intentSeq }

theorem typed_tree (m : NackMsg) : Typed m.tree := by
  have h₁ := optCount_le m.channelId
  have h₂ := optCount_le (m.detail.map textBytes)
  have h₃ := optCount_le m.intentId
  have h₄ := optCount_le m.retryAfterMs
  have h₅ := optCount_le m.intentSeq
  refine .map ?_ ?_ ?_
  · simp only [pairs, List.length_append, length_optPair, List.length_cons, List.length_nil]
    omega
  · simp only [pairs, List.forall_mem_append, forall_mem_optPair, List.forall_mem_cons]
    simp [CborKey.channelId, CborKey.code, CborKey.detail, CborKey.intentId, CborKey.retryAfterMs, CborKey.intentSeq]
  · simp only [pairs, List.append_assoc, List.forall_mem_append, forall_mem_optPair, List.forall_mem_cons]
    exact ⟨fun v _ => typed_u16 v, ⟨typed_u16 _, by simp⟩, fun d _ => .text d, fun v _ => typed_u16 v,
      fun v _ => typed_u32 v, fun v _ => typed_u16 v⟩

theorem decode_encode {m : NackMsg} {cap : Nat} {bs : Bytes} (hcap : cap < 2 ^ 64) (h : encodeNack m cap = some bs) :
    decodeNack bs = .ok m.received := by
  unfold encodeNack at h
  split_ifs at h with hlong
  have hdetail := detail_fits hlong
  have hemit : (emit m.tree { cap }).result = some bs := by
    rw [← h, tree, emit]
    simp only [pairs, List.length_append, length_optPair, List.length_cons, List.length_nil, emitPairs_append,
      emitPairs_u16, emitPairs_u32, emitPairs_text, optKey_map, optCount_map, emitPairs_cons, emitPairs_nil]
    rw [show optCount m.channelId + 1 + optCount m.detail + optCount m.intentId + optCount m.retryAfterMs +
      optCount m.intentSeq = 1 + optCount m.channelId + optCount m.detail + optCount m.intentId +
        optCount m.retryAfterMs + optCount m.intentSeq by omega]
    rfl
  have hof : (record {} NackFields.field).ofTree m.tree = some ⟨some m.code.code, m.channelId, m.intentId,
      m.detail.map textBytes, m.retryAfterMs, m.intentSeq⟩ := by
    rw [tree, record_ofTree]
    simp only [pairs, List.append_assoc]
    rw [foldlM_optPair (fun f o => { f with channelId := o }) id rfl (by simp +decide [NackFields.field]),
      foldlM_resume { channelId := m.channelId, code := some m.code.code } (by simp +decide [NackFields.field]),
      foldlM_optPair (fun f o => { f with detail := o }) id rfl (by
        intro d hd
        simp +decide [NackFields.field, hdetail d hd]),
      foldlM_optPair (fun f o => { f with intentId := o }) id rfl (by simp +decide [NackFields.field]),
      foldlM_optPair (fun f o => { f with retryAfterMs := o }) id rfl (by simp +decide [NackFields.field]),
      foldlM_optPair_last (fun f o => { f with intentSeq := o }) id rfl (by simp +decide [NackFields.field])]
    simp
  exact decode_emit m.typed_tree hcap hemit hof rfl

end NackMsg

namespace Wire

structure GoodbyeMsg where
  code : UInt16
  detail : Option Bytes := none
  deriving DecidableEq, Repr

/-- A PAIR_GRANT as it arrives. -/
structure PairGrantMsg where
  token : Token
  roles : UInt8
  trust : Option TrustMap := none
  deriving DecidableEq, Repr

end Wire

structure GoodbyeFields where
  code : Option UInt16 := none
  detail : Option Bytes := none
  deriving DecidableEq, Repr

namespace GoodbyeFields

def field (k : Nat) (f : GoodbyeFields) : CborDecoder GoodbyeFields :=
  if k = CborKey.code then u16.map fun v => { f with code := some v }
  else if k = CborKey.detail then (text kGoodbyeMaxDetailBytes).map fun v => { f with detail := some v }
  else skip f

def msg (f : GoodbyeFields) : Except DecodeError Wire.GoodbyeMsg :=
  match f.code with
  | some code => .ok { code, detail := f.detail }
  | none => .error .malformed

end GoodbyeFields

/-- The keys read must make a GOODBYE. -/
def decodeGoodbye (bs : Bytes) : Except DecodeError Wire.GoodbyeMsg := do
  let f ← (record {} GoodbyeFields.field).run bs
  f.msg

namespace GoodbyeMsg

def pairs (m : GoodbyeMsg) : List (Nat × CborTree) :=
  [(CborKey.code, .u16 m.code.code)] ++ optPair CborKey.detail (m.detail.map textBytes) .text

def received (m : GoodbyeMsg) : Wire.GoodbyeMsg := { code := m.code.code, detail := m.detail.map textBytes }

theorem decode_encode {m : GoodbyeMsg} {cap : Nat} {bs : Bytes} (hcap : cap < 2 ^ 64)
    (h : encodeGoodbye m cap = some bs) : decodeGoodbye bs = .ok m.received := by
  unfold encodeGoodbye at h
  split_ifs at h with hlong
  have hdetail := detail_fits hlong
  have hemit : (emit (.map m.pairs) { cap }).result = some bs := by
    rw [← h, emit]
    simp only [pairs, List.length_append, length_optPair, List.length_cons, List.length_nil, emitPairs_append,
      emitPairs_text, optKey_map, optCount_map]
    rfl
  have htyped : Typed (.map m.pairs) := by
    have h₁ := optCount_le (m.detail.map textBytes)
    refine .map ?_ ?_ ?_
    · simp only [pairs, List.length_append, length_optPair, List.length_cons, List.length_nil]
      omega
    · simp only [pairs, List.forall_mem_append, forall_mem_optPair, List.forall_mem_cons]
      simp [CborKey.code, CborKey.detail]
    · simp only [pairs, List.forall_mem_append, forall_mem_optPair, List.forall_mem_cons]
      exact ⟨⟨typed_u16 _, by simp⟩, fun d _ => .text d⟩
  have hof : (record {} GoodbyeFields.field).ofTree (.map m.pairs) = some ⟨some m.code.code, m.detail.map textBytes⟩ := by
    rw [record_ofTree, pairs, foldlM_resume { code := some m.code.code } (by simp +decide [GoodbyeFields.field]),
      foldlM_optPair_last (fun f o => { f with detail := o }) id rfl (by
        intro d hd
        simp +decide [GoodbyeFields.field, kGoodbyeMaxDetailBytes, hdetail d hd])]
    simp
  exact decode_emit htyped hcap hemit hof rfl

end GoodbyeMsg

/-! ## PAIR_GRANT -/

structure PairGrantFields where
  token : Option Token := none
  roles : Option UInt8 := none
  trust : Option TrustMap := none
  deriving DecidableEq, Repr

namespace PairGrantFields

def field (k : Nat) (f : PairGrantFields) : CborDecoder PairGrantFields :=
  if k = CborKey.token then (arr 16).map fun v => { f with token := some v }
  else if k = CborKey.roles then uint.map fun v => { f with roles := some v.toUInt8 }
  else if k = CborKey.trust then decodeTrustMap.map fun v => { f with trust := some v }
  else skip f

def msg (f : PairGrantFields) : Except DecodeError Wire.PairGrantMsg :=
  match f.token, f.roles with
  | some token, some roles => .ok { token, roles, trust := f.trust }
  | _, _ => .error .malformed

end PairGrantFields

/-- The keys read must make a PAIR_GRANT. -/
def decodePairGrant (bs : Bytes) : Except DecodeError Wire.PairGrantMsg := do
  let f ← (record {} PairGrantFields.field).run bs
  f.msg

namespace PairGrantMsg

def pairs (m : PairGrantMsg) : List (Nat × CborTree) :=
  [(CborKey.token, .arr m.token), (CborKey.roles, .u8 m.roles.code)] ++
    optPair CborKey.trust (m.trust.filter TrustMap.any) TrustMap.tree

def received (m : PairGrantMsg) : Wire.PairGrantMsg :=
  { token := m.token, roles := m.roles.code, trust := m.trust.filter TrustMap.any }

theorem encodePairGrant_emit (m : PairGrantMsg) (cap : Nat) :
    encodePairGrant m cap = (emit (.map m.pairs) { cap }).result := by
  rw [encodePairGrant, emit]
  simp only [pairs, List.length_append, length_optPair, List.length_cons, List.length_nil, emitPairs_append,
    TrustMap.emitPairs_trust]
  rfl

theorem typed_pairs (m : PairGrantMsg) : Typed (.map m.pairs) := by
  have h₁ := optCount_le (m.trust.filter TrustMap.any)
  refine .map ?_ ?_ ?_
  · simp only [pairs, List.length_append, length_optPair, List.length_cons, List.length_nil]
    omega
  · simp only [pairs, List.forall_mem_append, forall_mem_optPair, List.forall_mem_cons]
    simp [CborKey.token, CborKey.roles, CborKey.trust]
  · simp only [pairs, List.forall_mem_append, forall_mem_optPair, List.forall_mem_cons]
    exact ⟨⟨.bytes _, typed_u8 _, by simp⟩, fun t _ => t.typed_tree⟩

theorem ofTree_pairs {m : PairGrantMsg} (ht : ∀ t ∈ m.trust.filter TrustMap.any, t.Readable) :
    (record {} PairGrantFields.field).ofTree (.map m.pairs) =
      some ⟨some m.token, some m.roles.code, m.trust.filter TrustMap.any⟩ := by
  rw [record_ofTree, pairs,
    foldlM_resume { token := some m.token, roles := some m.roles.code } (by simp +decide [PairGrantFields.field]),
    foldlM_optPair_last (fun f o => { f with trust := o }) id rfl (by
      intro t hmem
      simp +decide [PairGrantFields.field, TrustMap.ofTree_of_readable (ht t hmem)])]
  simp

theorem readable_of_ofTree {m : PairGrantMsg} {f : PairGrantFields}
    (h : (record {} PairGrantFields.field).ofTree (.map m.pairs) = some f) :
    ∀ t ∈ m.trust.filter TrustMap.any, t.Readable := by
  intro t ht
  by_contra hbad
  have hmem : (CborKey.trust, t.tree) ∈ m.pairs := List.mem_append_right _ (mem_optPair ht)
  rw [record_ofTree, foldlM_none (fun s p => (PairGrantFields.field p.1 s).ofTree p.2) hmem (by
    simp +decide [PairGrantFields.field, TrustMap.ofTree_of_not_readable hbad])] at h
  cases h

/-- **A PAIR_GRANT arrives as it was sent exactly if its trust map is readable.** -/
theorem decode_iff {m : PairGrantMsg} {m' : Wire.PairGrantMsg} {cap : Nat} {bs : Bytes} (hcap : cap < 2 ^ 64)
    (h : encodePairGrant m cap = some bs) :
    decodePairGrant bs = .ok m' ↔ (∀ t ∈ m.trust.filter TrustMap.any, t.Readable) ∧ m' = m.received := by
  rw [encodePairGrant_emit] at h
  obtain ⟨rfl, hfits, -⟩ := result_emit m.typed_pairs hcap h
  rw [decodePairGrant, run_bind_encode hfits]
  constructor
  · rintro ⟨f, hf, hmsg⟩
    have ht := readable_of_ofTree hf
    obtain rfl := Option.some.inj ((ofTree_pairs ht).symm.trans hf)
    exact ⟨ht, (Except.ok.inj hmsg).symm⟩
  · rintro ⟨ht, rfl⟩
    exact ⟨_, ofTree_pairs ht, rfl⟩

end PairGrantMsg

end SlopSync
