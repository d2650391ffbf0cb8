import SlopSync.Codec.Hello

/-! # What a client asks

`wire/messages/subscribe.hpp`, `publish.hpp`, `pair.hpp` (PAIR_REQ), `auth.hpp`, `blob_req.hpp` and `probe_report.hpp`.
SUBSCRIBE, UNSUBSCRIBE and PUBLISH are one list under one key, AUTH and HUB_SIG one trust map. -/

namespace SlopSync

open CborWriter CborReader CborDecoder

/-- A message that was encoded is read back as what its tree stands for. -/
theorem decode_emit {α β : Type} {d : CborDecoder α} {k : α → Except DecodeError β} {t : CborTree} {a : α} {b : β}
    {cap : Nat} {bs : Bytes} (ht : Typed t) (hcap : cap < 2 ^ 64) (h : (emit t { cap }).result = some bs)
    (ha : d.ofTree t = some a) (hb : k a = .ok b) : (do let a ← d.run bs; k a) = .ok b := by
  obtain ⟨rfl, hfits, -⟩ := result_emit ht hcap h
  exact (run_bind_encode hfits).mpr ⟨a, ha, hb⟩

namespace Wire

/-! ## One list -/

section

variable {α β γ : Type} {k cap : Nat} {f : β → CborTree} {l : List β}

/-- A message that is one list under one key. -/
def listTree (k : Nat) (f : β → CborTree) (l : List β) : CborTree := .map [(k, .arrayOf f l)]

theorem typed_listTree (hk : k < 2 ^ 64) (hf : ∀ b, Typed (f b)) (hl : l.length < 2 ^ 32) : Typed (listTree k f l) := by
  refine .map (by simp) ?_ ?_
  · simpa using hk
  · simpa using typed_arrayOf hf hl

/-- A message that is one list is written as its tree. -/
theorem emit_listTree {g : CborWriter → β → CborWriter} (h : ∀ b w, g w b = emit (f b) w) (w : CborWriter) :
    emit (listTree k f l) w = l.foldl g (((w.mapHeader 1).key k).arrayHeader l.length) := by
  simp only [listTree, emit, emitPairs_cons, emitPairs_nil, CborTree.arrayOf, List.length_cons, List.length_nil,
    List.length_map]
  exact (foldl_emit h l _).symm

/-- Its encoder, refused when the list is too long. -/
def encodeList (k max : Nat) (g : CborWriter → β → CborWriter) (l : List β) (cap : Nat) : Option Bytes :=
  if max < l.length then none
  else (l.foldl g (((({ cap } : CborWriter).mapHeader 1).key k).arrayHeader l.length)).result

/-- A map with a list under `k`; other keys are skipped. -/
def oneList (k max : Nat) (item : CborDecoder α) : CborDecoder (Option (List α)) :=
  record none fun j f => if j = k then (list max item).map some else skip f

/-- The list must be there. -/
def decodeList (k max : Nat) (item : CborDecoder α) (back : α → β) (bs : Bytes) : Except DecodeError (List β) := do
  match ← (oneList k max item).run bs with
  | some l => .ok (l.map back)
  | none => .error .malformed

/-- **A list is read as it was written** when its items are. -/
theorem decode_encodeList {max : Nat} {g : CborWriter → β → CborWriter} {item : CborDecoder α} {r : β → α} {back : α → β}
    {bs : Bytes} (hk : k < 2 ^ 64) (hmax : max < 2 ^ 32) (hcap : cap < 2 ^ 64) (hg : ∀ b w, g w b = emit (f b) w)
    (hf : ∀ b, Typed (f b)) (hitem : ∀ b, item.ofTree (f b) = some (r b)) (hback : ∀ b, back (r b) = b)
    (h : encodeList k max g l cap = some bs) : decodeList k max item back bs = .ok l := by
  unfold encodeList at h
  split_ifs at h with hlen
  have hlen := not_lt.mp hlen
  rw [← emit_listTree hg] at h
  have hof : (oneList k max item).ofTree (listTree k f l) = some (some (l.map r)) := by
    rw [listTree, oneList, record_ofTree]
    simp [CborTree.arrayOf, list_ofTree hitem hlen]
  exact decode_emit (typed_listTree hk hf (by omega)) hcap h hof (by simp [Function.comp_def, hback])

end

/-- SUBSCRIBE, a list of wishes. -/
def encodeSubscribe : List SubscriptionWish → Nat → Option Bytes :=
  encodeList CborKey.subscriptions kSubscribeMaxWishes encodeWish

/-- UNSUBSCRIBE, a list of bare channels. -/
def encodeUnsubscribe : List UInt16 → Nat → Option Bytes :=
  encodeList CborKey.subscriptions kUnsubscribeMaxChannels fun w ch => w.uintVal ch.toNat

def kPublishMaxWishes : Nat := kHelloMaxPublishWishes

/-- PUBLISH, a list of publish wishes. -/
def encodePublish : List PublishWish → Nat → Option Bytes :=
  encodeList CborKey.publishes kPublishMaxWishes encodePublishWish

/-- PUBLISH is read as one list. -/
def decodePublish : Bytes → Except DecodeError (List PublishWish) :=
  decodeList CborKey.publishes kPublishMaxWishes (record {} PublishWishFields.field) PublishWishFields.wish

section

variable {cap : Nat} {bs : Bytes}

/-- SUBSCRIBE is such a message. -/
theorem decodeSubscribe_eq (bs : Bytes) : decodeSubscribe bs =
    decodeList CborKey.subscriptions kSubscribeMaxWishes (record {} WishFields.field) WishFields.wish bs := by
  unfold decodeSubscribe decodeList
  congr 1
  funext f
  cases f <;> rfl

/-- UNSUBSCRIBE is such a message. -/
theorem decodeUnsubscribe_eq (bs : Bytes) : decodeUnsubscribe bs =
    decodeList CborKey.subscriptions kUnsubscribeMaxChannels uint UInt64.toUInt16 bs := by
  unfold decodeUnsubscribe decodeList
  congr 1
  funext f
  cases f <;> rfl

/-- A SUBSCRIBE reads back. -/
theorem decode_encodeSubscribe {l : List SubscriptionWish} (hcap : cap < 2 ^ 64) (h : encodeSubscribe l cap = some bs) :
    decodeSubscribe bs = .ok l := by
  rw [decodeSubscribe_eq]
  exact decode_encodeList (by decide) (by decide) hcap (fun s w => encodeWish_emit s w) SubscriptionWish.typed_tree
    SubscriptionWish.ofTree_tree SubscriptionWish.fields_wish h

/-- An UNSUBSCRIBE reads back. -/
theorem decode_encodeUnsubscribe {l : List UInt16} (hcap : cap < 2 ^ 64) (h : encodeUnsubscribe l cap = some bs) :
    decodeUnsubscribe bs = .ok l := by
  rw [decodeUnsubscribe_eq]
  exact decode_encodeList (by decide) (by decide) hcap (fun _ _ => rfl) typed_u16 uint_u16 UInt16.toUInt16_toUInt64 h

/-- A PUBLISH reads back. -/
theorem decode_encodePublish {l : List PublishWish} (hcap : cap < 2 ^ 64) (h : encodePublish l cap = some bs) :
    decodePublish bs = .ok l :=
  decode_encodeList (by decide) (by decide) hcap (fun p w => encodePublishWish_emit p w) PublishWish.typed_tree
    PublishWish.ofTree_tree PublishWish.fields_wish h

end

/-! ## PAIR_REQ -/

structure PairReqFields where
  instanceId : Option InstanceId := none
  pinProof : Option Token := none
  deriving DecidableEq, Repr

/-- One key of a PAIR_REQ. -/
def PairReqFields.field (k : Nat) (f : PairReqFields) : CborDecoder PairReqFields :=
  if k = CborKey.instanceId then (arr 8).map fun v => { f with instanceId := some v }
  else if k = CborKey.pinProof then (arr 16).map fun v => { f with pinProof := some v }
  else skip f

/-- Only the instance must be there: without a proof it is a knock. -/
def PairReqFields.msg (f : PairReqFields) : Except DecodeError PairReqMsg :=
  match f.instanceId with
  | some instanceId => .ok { instanceId, pinProof := f.pinProof }
  | none => .error .malformed

/-- A PAIR_REQ names an instance. -/
def decodePairReq (bs : Bytes) : Except DecodeError PairReqMsg := do
  let f ← (record {} PairReqFields.field).run bs
  f.msg

/-- A PAIR_REQ, key by key. -/
def pairReqPairs (m : PairReqMsg) : List (Nat × CborTree) :=
  [(CborKey.instanceId, .arr m.instanceId)] ++ optPair CborKey.pinProof m.pinProof .arr

/-- A PAIR_REQ is written as its map. -/
theorem encodePairReq_emit (m : PairReqMsg) (cap : Nat) :
    encodePairReq m cap = (emit (.map (pairReqPairs m)) { cap }).result := by
  rw [encodePairReq, emit]
  simp only [pairReqPairs, List.length_append, length_optPair, List.length_cons, List.length_nil, emitPairs_append,
    emitPairs_arr]
  rfl

theorem typed_pairReq (m : PairReqMsg) : Typed (.map (pairReqPairs m)) := by
  have h₁ := optCount_le m.pinProof
  refine .map ?_ ?_ ?_
  · simp only [pairReqPairs, List.length_append, length_optPair, List.length_cons, List.length_nil]
    omega
  · simp only [pairReqPairs, List.forall_mem_append, forall_mem_optPair, List.forall_mem_cons]
    simp [CborKey.instanceId, CborKey.pinProof]
  · simp only [pairReqPairs, List.forall_mem_append, forall_mem_optPair, List.forall_mem_cons]
    exact ⟨⟨.bytes _, by simp⟩, fun v _ => .bytes _⟩

/-- A PAIR_REQ reads back. -/
theorem decode_encodePairReq {m : PairReqMsg} {cap : Nat} {bs : Bytes} (hcap : cap < 2 ^ 64)
    (h : encodePairReq m cap = some bs) : decodePairReq bs = .ok m := by
  rw [encodePairReq_emit] at h
  have hof : (record {} PairReqFields.field).ofTree (.map (pairReqPairs m)) = some ⟨some m.instanceId, m.pinProof⟩ := by
    rw [record_ofTree, pairReqPairs,
      foldlM_resume { instanceId := some m.instanceId } (by simp +decide [PairReqFields.field]),
      foldlM_optPair_last (fun f o => { f with pinProof := o }) id rfl (by simp +decide [PairReqFields.field])]
    simp
  exact decode_emit (typed_pairReq m) hcap h hof rfl

/-! ## AUTH and HUB_SIG -/

/-- The trust map is the whole message. -/
def decodeTrustEnvelope (bs : Bytes) : Except DecodeError TrustMap := do
  let f ← (record none fun k f => if k = CborKey.trust then decodeTrustMap.map some else skip f).run bs
  match f with
  | some t => .ok t
  | none => .error .malformed

/-- AUTH and HUB_SIG wrap a trust map. -/
theorem encodeTrustEnvelope_emit {t : TrustMap} (h : t.any = true) (cap : Nat) :
    encodeTrustEnvelope t cap = (emit (.map [(CborKey.trust, t.tree)]) { cap }).result := by
  rw [encodeTrustEnvelope, h, TrustMap.encodeTrustMap_emit]
  rfl

theorem typed_trustEnvelope (t : TrustMap) : Typed (.map [(CborKey.trust, t.tree)]) := by
  refine .map (by simp) ?_ ?_
  · simp [CborKey.trust]
  · simpa using t.typed_tree

/-- **An envelope is read back exactly if its map is readable.** -/
theorem decode_trustEnvelope_iff {t t' : TrustMap} {cap : Nat} {bs : Bytes} (hcap : cap < 2 ^ 64)
    (h : encodeTrustEnvelope t cap = some bs) : decodeTrustEnvelope bs = .ok t' ↔ t.Readable ∧ t' = t := by
  have hany : t.any = true := by
    by_contra hnone
    rw [encodeTrustEnvelope, if_pos (by simpa using hnone)] at h
    cases h
  rw [encodeTrustEnvelope_emit hany] at h
  obtain ⟨rfl, hfits, -⟩ := result_emit (typed_trustEnvelope t) hcap h
  rw [decodeTrustEnvelope, run_bind_encode hfits]
  have hof : (record none fun k f => if k = CborKey.trust then decodeTrustMap.map some else skip f).ofTree
      (.map [(CborKey.trust, t.tree)]) = (decodeTrustMap.ofTree t.tree).map some := by
    rw [record_ofTree]
    simp
  rw [hof]
  by_cases hr : t.Readable
  · rw [TrustMap.ofTree_of_readable hr]
    simp [hr, eq_comm]
  · rw [TrustMap.ofTree_of_not_readable hr]
    simp [hr]

/-! ## BLOB_REQ -/

def kBlobReqMaxChunks : Nat := 32

end Wire

namespace BlobId

/-- The namespace, when it is not the catalog's. -/
def emitNs (b : BlobId) : Option UInt8 := if b.isCatalog then none else some b.ns

def pairs (b : BlobId) : List (Nat × CborTree) :=
  optPair 1 b.emitNs .u8 ++ optPair 2 b.storeId .u8 ++ optPair 3 b.slot .u8 ++ optPair 4 b.generation .u16

def keyCount (b : BlobId) : Nat := optCount b.emitNs + optCount b.storeId + optCount b.slot + optCount b.generation

def tree (b : BlobId) : CborTree := .map b.pairs

/-- The id, when it says something a default does not. -/
def emitted (b : BlobId) : Option BlobId := if b.keyCount = 0 then none else some b

/-- The value of a sub-key; unknown ones are skipped. -/
def field (k : Nat) (b : BlobId) : CborDecoder BlobId :=
  if k = 1 then u8.map fun v => { b with ns := v }
  else if k = 2 then u8.map fun v => { b with storeId := some v }
  else if k = 3 then u8.map fun v => { b with slot := some v }
  else if k = 4 then u16.map fun v => { b with generation := some v }
  else skip b

theorem length_pairs (b : BlobId) : b.pairs.length = b.keyCount := by
  simp only [pairs, keyCount, List.length_append, length_optPair]

theorem getD_emitNs (b : BlobId) : b.emitNs.getD 0 = b.ns := by
  unfold emitNs isCatalog
  split_ifs with h
  · exact (beq_iff_eq.mp h).symm
  · rfl

theorem typed_tree (b : BlobId) : Typed b.tree := by
  refine .map ?_ ?_ ?_
  · have h₁ := optCount_le b.emitNs
    have h₂ := optCount_le b.storeId
    have h₃ := optCount_le b.slot
    have h₄ := optCount_le b.generation
    rw [length_pairs, keyCount]
    omega
  · simp only [pairs, List.forall_mem_append, forall_mem_optPair]
    simp
  · simp only [pairs, List.append_assoc, List.forall_mem_append, forall_mem_optPair]
    exact ⟨fun v _ => typed_u8 v, fun v _ => typed_u8 v, fun v _ => typed_u8 v, fun v _ => typed_u16 v⟩

theorem ofTree_tree (b : BlobId) : (record {} field).ofTree b.tree = some b := by
  rw [tree, record_ofTree]
  simp only [pairs, List.append_assoc]
  rw [foldlM_optPair (fun b o => { b with ns := o.getD 0 }) id rfl (by simp [field]),
    foldlM_optPair (fun b o => { b with storeId := o }) id rfl (by simp [field]),
    foldlM_optPair (fun b o => { b with slot := o }) id rfl (by simp [field]),
    foldlM_optPair_last (fun b o => { b with generation := o }) id rfl (by simp [field])]
  simp [getD_emitNs]

/-- An id that is left out is the default one. -/
theorem getD_emitted (b : BlobId) : b.emitted.getD {} = b := by
  have hnone : ∀ {α : Type} {o : Option α}, optCount o = 0 → o = none := by
    intro α o h
    cases o with
    | none => rfl
    | some a => simp [optCount] at h
  unfold emitted
  split_ifs with h
  · unfold keyCount at h
    have hns := b.getD_emitNs
    have h₁ : b.emitNs = none := hnone (by omega)
    have h₂ : b.storeId = none := hnone (by omega)
    have h₃ : b.slot = none := hnone (by omega)
    have h₄ : b.generation = none := hnone (by omega)
    rw [h₁] at hns
    obtain ⟨ns, storeId, slot, generation⟩ := b
    cases h₂
    cases h₃
    cases h₄
    cases hns
    rfl
  · rfl

end BlobId

namespace Wire

/-- A repair that names nothing and a catalog with a store or a slot are refused. -/
def encodeBlobReq (m : BlobReqMsg) (cap : Nat) : Option Bytes :=
  if m.chunks.any (fun l => decide (kBlobReqMaxChunks < l.length)) then none
  else if m.chunks = some [] then none
  else if m.blob.isCatalog && (m.blob.storeId.isSome || m.blob.slot.isSome) then none
  else
    let w : CborWriter := { cap }
    let w := w.mapHeader (optCount m.chunks + optCount m.blob.emitted)
    let w := w.optKey CborKey.chunks m.chunks fun w l => l.foldl (fun w i => w.uintVal i.toNat) (w.arrayHeader l.length)
    let w := w.optKey CborKey.blob m.blob.emitted fun w b =>
      let w := w.mapHeader b.keyCount
      let w := w.optKey 1 b.emitNs fun w v => w.uintVal v.toNat
      let w := w.optKey 2 b.storeId fun w v => w.uintVal v.toNat
      let w := w.optKey 3 b.slot fun w v => w.uintVal v.toNat
      w.optKey 4 b.generation fun w v => w.uintVal v.toNat
    w.result

/-- One key of a BLOB_REQ. -/
def blobReqField (k : Nat) (m : BlobReqMsg) : CborDecoder BlobReqMsg :=
  if k = CborKey.chunks then
    ((list kBlobReqMaxChunks u16).andThen fun l => if l.isEmpty then .error .malformed else .ok l).map fun v =>
      { m with chunks := some v }
  else if k = CborKey.blob then (record m.blob BlobId.field).map fun v => { m with blob := v }
  else skip m

def decodeBlobReq (bs : Bytes) : Except DecodeError BlobReqMsg := do
  let m ← (record {} blobReqField).run bs
  if m.blob.isCatalog && (m.blob.storeId.isSome || m.blob.slot.isSome) then .error .malformed else .ok m

/-- A BLOB_REQ, key by key. -/
def blobReqPairs (m : BlobReqMsg) : List (Nat × CborTree) :=
  optPair CborKey.chunks m.chunks (.arrayOf .u16) ++ optPair CborKey.blob m.blob.emitted BlobId.tree

/-- What the encoder lets through. -/
structure BlobReqBounded (m : BlobReqMsg) : Prop where
  chunks : ∀ l ∈ m.chunks, l.length ≤ kBlobReqMaxChunks ∧ l ≠ []
  blob : (m.blob.isCatalog && (m.blob.storeId.isSome || m.blob.slot.isSome)) = false

/-- A BLOB_REQ that encodes is within its bounds. -/
theorem encodeBlobReq_emit {m : BlobReqMsg} {cap : Nat} {bs : Bytes} (h : encodeBlobReq m cap = some bs) :
    BlobReqBounded m ∧ (emit (.map (blobReqPairs m)) { cap }).result = some bs := by
  have hblob : ∀ (b : BlobId) (w : CborWriter), emit b.tree w =
      ((((w.mapHeader b.keyCount).optKey 1 b.emitNs fun w v => w.uintVal v.toNat).optKey 2 b.storeId
        fun w v => w.uintVal v.toNat).optKey 3 b.slot fun w v => w.uintVal v.toNat).optKey 4 b.generation
          fun w v => w.uintVal v.toNat := by
    intro b w
    rw [BlobId.tree, emit, BlobId.length_pairs]
    simp only [BlobId.pairs, emitPairs_append, emitPairs_u8, emitPairs_u16]
  have hchunks : ∀ (l : List UInt16) (w : CborWriter), emit (.arrayOf .u16 l) w =
      l.foldl (fun w i => w.uintVal i.toNat) (w.arrayHeader l.length) := by
    intro l w
    simp only [CborTree.arrayOf, emit, List.length_map]
    exact (foldl_emit (fun _ _ => rfl) l _).symm
  unfold encodeBlobReq at h
  split_ifs at h with h₁ h₂ h₃
  refine ⟨⟨fun l hl => ⟨?_, ?_⟩, by simpa using h₃⟩, ?_⟩
  · rw [hl] at h₁
    simpa using h₁
  · rintro rfl
    exact h₂ hl
  · rw [← h, emit]
    simp only [blobReqPairs, List.length_append, length_optPair, emitPairs_append, emitPairs_optPair, hblob, hchunks]

theorem typed_blobReq {m : BlobReqMsg} (h : BlobReqBounded m) : Typed (.map (blobReqPairs m)) := by
  have hmax : kBlobReqMaxChunks = 32 := rfl
  refine .map ?_ ?_ ?_
  · have h₁ := optCount_le m.chunks
    have h₂ := optCount_le m.blob.emitted
    simp only [blobReqPairs, List.length_append, length_optPair]
    omega
  · simp only [blobReqPairs, List.forall_mem_append, forall_mem_optPair]
    simp [CborKey.chunks, CborKey.blob]
  · simp only [blobReqPairs, List.forall_mem_append, forall_mem_optPair]
    refine ⟨fun l hl => typed_arrayOf typed_u16 ?_, fun b _ => b.typed_tree⟩
    have := (h.chunks l hl).1
    omega

/-- A BLOB_REQ reads back. -/
theorem decode_encodeBlobReq {m : BlobReqMsg} {cap : Nat} {bs : Bytes} (hcap : cap < 2 ^ 64)
    (h : encodeBlobReq m cap = some bs) : decodeBlobReq bs = .ok m := by
  obtain ⟨hbounded, h⟩ := encodeBlobReq_emit h
  have hof : (record {} blobReqField).ofTree (.map (blobReqPairs m)) = some m := by
    rw [record_ofTree, blobReqPairs,
      foldlM_optPair (fun m o => { m with chunks := o }) id rfl (by
        intro l hl
        have hread : (list kBlobReqMaxChunks u16).ofTree (.arrayOf .u16 l) = some (l.map id) :=
          list_ofTree (by simp) (hbounded.chunks l hl).1
        rw [List.map_id, CborTree.arrayOf] at hread
        simp +decide [blobReqField, CborTree.arrayOf, hread, (hbounded.chunks l hl).2, Except.toOption]),
      foldlM_optPair_last (fun m o => { m with blob := o.getD {} }) id rfl (by
        intro b _
        simp +decide [blobReqField, BlobId.ofTree_tree])]
    simp [BlobId.getD_emitted]
  refine decode_emit (typed_blobReq hbounded) hcap h hof ?_
  rw [hbounded.blob]
  rfl

/-! ## PROBE_REPORT -/

/-- The result as it is on the wire. -/
structure ProbeFields where
  bytesReceived : UInt64 := 0
  spanMs : UInt64 := 0
  lossPctX100 : UInt64 := 0
  rttMs : UInt64 := 0
  deriving DecidableEq, Repr

def ProbeFields.field (k : Nat) (f : ProbeFields) : CborDecoder ProbeFields :=
  if k = 1 then uint.map fun v => { f with bytesReceived := v }
  else if k = 2 then uint.map fun v => { f with spanMs := v }
  else if k = 3 then uint.map fun v => { f with lossPctX100 := v }
  else if k = 4 then uint.map fun v => { f with rttMs := v }
  else skip f

def ProbeFields.result (f : ProbeFields) : ProbeResult :=
  ⟨f.bytesReceived.toUInt32, f.spanMs.toUInt32, f.lossPctX100.toUInt32, f.rttMs.toUInt32⟩

/-- The result must be there; its integers are cut to 32 bits. -/
def decodeProbeReport (bs : Bytes) : Except DecodeError ProbeResult := do
  let f ← (record none fun k f =>
    if k = CborKey.probeResult then (record {} ProbeFields.field).map some else skip f).run bs
  match f with
  | some f => .ok f.result
  | none => .error .malformed

/-- A probe's result on the wire. -/
def probeTree (m : ProbeResult) : CborTree :=
  .map [(1, .u32 m.bytesReceived), (2, .u32 m.spanMs), (3, .u32 m.lossPctX100), (4, .u32 m.rttMs)]

/-- A PROBE_REPORT reads back. -/
theorem decode_encodeProbeReport {m : ProbeResult} {cap : Nat} {bs : Bytes} (hcap : cap < 2 ^ 64)
    (h : encodeProbeReport m cap = some bs) : decodeProbeReport bs = .ok m := by
  have hemit : (emit (.map [(CborKey.probeResult, probeTree m)]) { cap }).result = some bs := h
  have htyped : Typed (probeTree m) := by
    refine .map (by simp) ?_ ?_
    · simp
    · simp only [List.forall_mem_cons]
      exact ⟨typed_u32 _, typed_u32 _, typed_u32 _, typed_u32 _, by simp⟩
  have hresult : (record {} ProbeFields.field).ofTree (probeTree m) =
      some ⟨m.bytesReceived.toUInt64, m.spanMs.toUInt64, m.lossPctX100.toUInt64, m.rttMs.toUInt64⟩ := by
    rw [probeTree, record_ofTree]
    simp +decide [ProbeFields.field]
  refine decode_emit (.map (by simp) (by simp [CborKey.probeResult]) (by simpa using htyped)) hcap hemit
    (a := some ⟨m.bytesReceived.toUInt64, m.spanMs.toUInt64, m.lossPctX100.toUInt64, m.rttMs.toUInt64⟩) ?_ ?_
  · rw [record_ofTree]
    simp [hresult]
  · simp [ProbeFields.result]

end Wire

end SlopSync
