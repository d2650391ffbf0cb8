import SlopSync.Codec.Trust

/-! # HELLO, SUBSCRIBE and UNSUBSCRIBE

`wire/messages/hello.hpp` and `wire/messages/subscribe.hpp`, over every value a field can take.  A decoder first reads
the fields as they are on the wire, where an integer has up to 64 bits (`HelloFields`), and makes the message of them:
fields that must be there are, and the integers that were not bounded when they were read are cut to their type. -/

namespace SlopSync

open CborWriter CborReader CborDecoder

namespace Wire

/-! ## The messages -/

structure SubscriptionWish where
  channelId : UInt16
  rateHz : UInt32      -- binary32
  priority : UInt8
  deriving DecidableEq, Repr

structure PublishWish where
  channelId : UInt16
  rateHz : UInt32
  burst : Option UInt32 := none
  curveFamily : Option UInt8 := none
  deriving DecidableEq, Repr

structure HelloMsg where
  protoVer : UInt8
  clientKind : Bytes
  clientName : Bytes
  instanceId : InstanceId
  token : Option Token := none
  catalogEtag : Option Etag := none
  subscriptions : List SubscriptionWish := []
  publishes : List PublishWish := []
  trust : Option TrustMap := none
  deadmanWishMs : UInt32 := 0
  deriving DecidableEq, Repr

/-! ## Encoders -/

def encodeWish (w : CborWriter) (s : SubscriptionWish) : CborWriter :=
  let w := w.mapHeader 3
  let w := (w.key CborKey.rateHz).f32Val s.rateHz
  let w := (w.key CborKey.priority).uintVal s.priority.toNat
  (w.key CborKey.channelId).uintVal s.channelId.toNat

def encodePublishWish (w : CborWriter) (p : PublishWish) : CborWriter :=
  let w := w.mapHeader (2 + optCount p.burst + optCount p.curveFamily)
  let w := (w.key CborKey.rateHz).f32Val p.rateHz
  let w := (w.key CborKey.channelId).uintVal p.channelId.toNat
  let w := w.optKey CborKey.burst p.burst CborWriter.f32Val
  w.optKey CborKey.curveFamily p.curveFamily fun w v => w.uintVal v.toNat

def encodeHello (m : HelloMsg) (cap : Nat) : Option Bytes :=
  let subscriptions := listOpt m.subscriptions
  let publishes := listOpt m.publishes
  let trust := m.trust.filter TrustMap.any
  let deadmanWishMs := nonzero m.deadmanWishMs
  if kHelloMaxClientKindBytes < m.clientKind.length then none
  else if kHelloMaxClientNameBytes < m.clientName.length then none
  else if kHelloMaxSubscriptionWishes < m.subscriptions.length then none
  else if kHelloMaxPublishWishes < m.publishes.length then none
  else
    let w : CborWriter := { cap }
    let w := w.mapHeader (4 + optCount m.token + optCount m.catalogEtag + optCount subscriptions +
      optCount publishes + optCount trust + optCount deadmanWishMs)
    let w := (w.key CborKey.protoVer).uintVal m.protoVer.toNat
    let w := (w.key CborKey.clientKind).tstrVal m.clientKind
    let w := (w.key CborKey.clientName).tstrVal m.clientName
    let w := (w.key CborKey.instanceId).bstrVal m.instanceId.val
    let w := w.optKey CborKey.token m.token fun w b => w.bstrVal b.val
    let w := w.optKey CborKey.catalogEtag m.catalogEtag fun w b => w.bstrVal b.val
    let w := w.optKey CborKey.subscriptions subscriptions fun w l => l.foldl encodeWish (w.arrayHeader l.length)
    let w := w.optKey CborKey.publishes publishes fun w l => l.foldl encodePublishWish (w.arrayHeader l.length)
    let w := match trust with
      | none => w
      | some t => encodeTrustMap w t
    let w := w.optKey CborKey.deadmanWishMs deadmanWishMs fun w v => w.uintVal v.toNat
    w.result

/-! ## Decoders -/

/-- A wish as it is on the wire. -/
structure WishFields where
  channelId : UInt64 := 0
  rateHz : UInt32 := 0
  priority : UInt64 := 0
  deriving DecidableEq, Repr

structure PublishWishFields where
  channelId : UInt64 := 0
  rateHz : UInt32 := 0
  burst : Option UInt32 := none
  curveFamily : Option UInt8 := none
  deriving DecidableEq, Repr

structure HelloFields where
  protoVer : Option UInt8 := none
  clientKind : Option Bytes := none
  clientName : Option Bytes := none
  instanceId : Option InstanceId := none
  token : Option Token := none
  catalogEtag : Option Etag := none
  subscriptions : List WishFields := []
  publishes : List PublishWishFields := []
  trust : Option TrustMap := none
  deadmanWishMs : UInt32 := 0
  deriving DecidableEq, Repr

def WishFields.field (k : Nat) (f : WishFields) : CborDecoder WishFields :=
  if k = CborKey.channelId then uint.map fun v => { f with channelId := v }
  else if k = CborKey.rateHz then f32.map fun v => { f with rateHz := v }
  else if k = CborKey.priority then uint.map fun v => { f with priority := v }
  else skip f

def PublishWishFields.field (k : Nat) (f : PublishWishFields) : CborDecoder PublishWishFields :=
  if k = CborKey.channelId then uint.map fun v => { f with channelId := v }
  else if k = CborKey.rateHz then f32.map fun v => { f with rateHz := v }
  else if k = CborKey.burst then f32.map fun v => { f with burst := some v }
  else if k = CborKey.curveFamily then u8.map fun v => { f with curveFamily := some v }
  else skip f

def HelloFields.field (k : Nat) (f : HelloFields) : CborDecoder HelloFields :=
  if k = CborKey.protoVer then u8.map fun v => { f with protoVer := some v }
  else if k = CborKey.clientKind then (text kHelloMaxClientKindBytes).map fun v => { f with clientKind := some v }
  else if k = CborKey.clientName then (text kHelloMaxClientNameBytes).map fun v => { f with clientName := some v }
  else if k = CborKey.instanceId then (arr 8).map fun v => { f with instanceId := some v }
  else if k = CborKey.token then (arr 16).map fun v => { f with token := some v }
  else if k = CborKey.catalogEtag then (arr 8).map fun v => { f with catalogEtag := some v }
  else if k = CborKey.subscriptions then
    (list kHelloMaxSubscriptionWishes (record {} WishFields.field)).map fun v => { f with subscriptions := v }
  else if k = CborKey.publishes then
    (list kHelloMaxPublishWishes (record {} PublishWishFields.field)).map fun v => { f with publishes := v }
  else if k = CborKey.trust then decodeTrustMap.map fun v => { f with trust := some v }
  else if k = CborKey.deadmanWishMs then u32.map fun v => { f with deadmanWishMs := v }
  else skip f

def WishFields.wish (f : WishFields) : SubscriptionWish :=
  { channelId := f.channelId.toUInt16, rateHz := f.rateHz, priority := f.priority.toUInt8 }

def PublishWishFields.wish (f : PublishWishFields) : PublishWish :=
  { channelId := f.channelId.toUInt16, rateHz := f.rateHz, burst := f.burst, curveFamily := f.curveFamily }

/-- The message: who it is from must be there. -/
def HelloFields.msg (f : HelloFields) : Except DecodeError HelloMsg :=
  match f.protoVer, f.clientKind, f.clientName, f.instanceId with
  | some protoVer, some clientKind, some clientName, some instanceId =>
    .ok { protoVer, clientKind, clientName, instanceId, token := f.token, catalogEtag := f.catalogEtag
          subscriptions := f.subscriptions.map WishFields.wish, publishes := f.publishes.map PublishWishFields.wish
          trust := f.trust, deadmanWishMs := f.deadmanWishMs }
  | _, _, _, _ => .error .malformed

def helloFields : CborDecoder HelloFields := record {} HelloFields.field

/-- The keys read must make a HELLO. -/
def decodeHello (bs : Bytes) : Except DecodeError HelloMsg := do
  let f ← helloFields.run bs
  f.msg

/-- The wishes of a SUBSCRIBE. -/
def subscribeFields : CborDecoder (Option (List WishFields)) :=
  record none fun k f =>
    if k = CborKey.subscriptions then (list kSubscribeMaxWishes (record {} WishFields.field)).map some else skip f

/-- The list of wishes must be there. -/
def decodeSubscribe (bs : Bytes) : Except DecodeError (List SubscriptionWish) := do
  match ← subscribeFields.run bs with
  | some wishes => .ok (wishes.map WishFields.wish)
  | none => .error .malformed

def kUnsubscribeMaxChannels : Nat := 16

/-- The channels of an UNSUBSCRIBE, bare. -/
def unsubscribeFields : CborDecoder (Option (List UInt64)) :=
  record none fun k f =>
    if k = CborKey.subscriptions then (list kUnsubscribeMaxChannels uint).map some else skip f

/-- The list of channels must be there. -/
def decodeUnsubscribe (bs : Bytes) : Except DecodeError (List UInt16) := do
  match ← unsubscribeFields.run bs with
  | some channels => .ok (channels.map UInt64.toUInt16)
  | none => .error .malformed

/-! ## Trees -/

/-- A list that is given as optional is that list. -/
theorem mem_listOpt {α : Type} {l l' : List α} (h : l' ∈ listOpt l) : l' = l := by
  rw [listOpt, Option.mem_def] at h
  split_ifs at h
  exact (Option.some.inj h).symm

/-- A list that is written only when it is not empty is read back with the empty list for absent. -/
theorem getD_listOpt {α β : Type} (f : α → β) (l : List α) : ((listOpt l).map (List.map f)).getD [] = l.map f := by
  cases l <;> rfl

section Trees

variable (s : SubscriptionWish) (p : PublishWish)

/-- A wish on the wire. -/
def SubscriptionWish.tree : CborTree :=
  .map [(CborKey.rateHz, .f32 s.rateHz), (CborKey.priority, .u8 s.priority), (CborKey.channelId, .u16 s.channelId)]

/-- A publish wish, key by key. -/
def PublishWish.pairs : List (Nat × CborTree) :=
  [(CborKey.rateHz, .f32 p.rateHz), (CborKey.channelId, .u16 p.channelId)] ++
    optPair CborKey.burst p.burst .f32 ++ optPair CborKey.curveFamily p.curveFamily .u8

/-- A publish wish on the wire. -/
def PublishWish.tree : CborTree := .map p.pairs

def SubscriptionWish.fields : WishFields :=
  { channelId := s.channelId.toUInt64, rateHz := s.rateHz, priority := s.priority.toUInt64 }

def PublishWish.fields : PublishWishFields :=
  { channelId := p.channelId.toUInt64, rateHz := p.rateHz, burst := p.burst, curveFamily := p.curveFamily }

@[simp] theorem SubscriptionWish.fields_wish : s.fields.wish = s := by
  simp [fields, WishFields.wish]

@[simp] theorem PublishWish.fields_wish : p.fields.wish = p := by
  simp [fields, PublishWishFields.wish]

theorem encodeWish_emit (w : CborWriter) : encodeWish w s = emit s.tree w := rfl

/-- The encoder of a publish wish emits its tree. -/
theorem encodePublishWish_emit (w : CborWriter) : encodePublishWish w p = emit p.tree w := by
  rw [encodePublishWish, PublishWish.tree, emit]
  simp only [PublishWish.pairs, List.length_append, length_optPair, List.length_cons, List.length_nil, emitPairs_append,
    emitPairs_f32, emitPairs_u8]
  rfl

theorem SubscriptionWish.typed_tree : Typed s.tree := by
  refine .map (by simp) ?_ ?_
  · simp [CborKey.rateHz, CborKey.priority, CborKey.channelId]
  · simp only [List.forall_mem_cons]
    exact ⟨.f32 _, typed_u8 _, typed_u16 _, by simp⟩

theorem PublishWish.typed_tree : Typed p.tree := by
  have h₁ := optCount_le p.burst
  have h₂ := optCount_le p.curveFamily
  refine .map ?_ ?_ ?_
  · simp only [pairs, List.length_append, length_optPair, List.length_cons, List.length_nil]
    omega
  · simp only [pairs, List.forall_mem_append, forall_mem_optPair, List.forall_mem_cons]
    simp [CborKey.rateHz, CborKey.channelId, CborKey.burst, CborKey.curveFamily]
  · simp only [pairs, List.append_assoc, List.forall_mem_append, forall_mem_optPair, List.forall_mem_cons]
    exact ⟨⟨.f32 _, typed_u16 _, by simp⟩, fun v _ => .f32 v, fun v _ => typed_u8 v⟩

/-- A subscription wish is read back from its tree. -/
theorem SubscriptionWish.ofTree_tree : (record {} WishFields.field).ofTree s.tree = some s.fields := by
  rw [tree, record_ofTree]
  simp +decide [WishFields.field, fields]

/-- A publish wish is read back from its tree. -/
theorem PublishWish.ofTree_tree : (record {} PublishWishFields.field).ofTree p.tree = some p.fields := by
  rw [tree, record_ofTree]
  simp only [pairs, List.append_assoc]
  rw [foldlM_resume { rateHz := p.rateHz, channelId := p.channelId.toUInt64 } (by
      simp +decide [PublishWishFields.field]),
    foldlM_optPair (fun f o => { f with burst := o }) id rfl (by
      simp +decide [PublishWishFields.field]),
    foldlM_optPair_last (fun f o => { f with curveFamily := o }) id rfl (by
      simp +decide [PublishWishFields.field])]
  simp [fields]

end Trees

namespace HelloMsg

/-- What is left of a message on the wire: a trust map with nothing in it is not sent. -/
def collapse (m : HelloMsg) : HelloMsg := { m with trust := m.trust.filter TrustMap.any }

def fields (m : HelloMsg) : HelloFields :=
  { protoVer := some m.protoVer, clientKind := some m.clientKind, clientName := some m.clientName
    instanceId := some m.instanceId, token := m.token, catalogEtag := m.catalogEtag
    subscriptions := m.subscriptions.map SubscriptionWish.fields
    publishes := m.publishes.map PublishWish.fields, trust := m.trust, deadmanWishMs := m.deadmanWishMs }

/-- The fields of a HELLO give the HELLO back. -/
theorem fields_msg (m : HelloMsg) : m.fields.msg = .ok m := by
  simp [fields, HelloFields.msg, Function.comp_def]

def pairs (m : HelloMsg) : List (Nat × CborTree) :=
  [(CborKey.protoVer, .u8 m.protoVer), (CborKey.clientKind, .text m.clientKind),
    (CborKey.clientName, .text m.clientName), (CborKey.instanceId, .arr m.instanceId)] ++
    optPair CborKey.token m.token .arr ++ optPair CborKey.catalogEtag m.catalogEtag .arr ++
    optPair CborKey.subscriptions (listOpt m.subscriptions) (.arrayOf SubscriptionWish.tree) ++
    optPair CborKey.publishes (listOpt m.publishes) (.arrayOf PublishWish.tree) ++
    optPair CborKey.trust (m.trust.filter TrustMap.any) TrustMap.tree ++
    optPair CborKey.deadmanWishMs (nonzero m.deadmanWishMs) .u32

def tree (m : HelloMsg) : CborTree := .map m.pairs

/-- The bounds the encoder checks. -/
structure Bounded (m : HelloMsg) : Prop where
  clientKind : m.clientKind.length ≤ kHelloMaxClientKindBytes
  clientName : m.clientName.length ≤ kHelloMaxClientNameBytes
  subscriptions : m.subscriptions.length ≤ kHelloMaxSubscriptionWishes
  publishes : m.publishes.length ≤ kHelloMaxPublishWishes

/-- A HELLO that was encoded is within its bounds. -/
theorem encodeHello_bounded {m : HelloMsg} {cap : Nat} {bs : Bytes} (h : encodeHello m cap = some bs) : m.Bounded := by
  unfold encodeHello at h
  dsimp only at h
  split_ifs at h with h₁ h₂ h₃ h₄
  exact ⟨not_lt.mp h₁, not_lt.mp h₂, not_lt.mp h₃, not_lt.mp h₄⟩

/-- `encodeHello` emits the tree of a HELLO within its bounds. -/
theorem encodeHello_emit {m : HelloMsg} (h : m.Bounded) (cap : Nat) :
    encodeHello m cap = (emit m.tree { cap }).result := by
  obtain ⟨h₁, h₂, h₃, h₄⟩ := h
  unfold encodeHello
  dsimp only
  rw [if_neg (not_lt.mpr h₁), if_neg (not_lt.mpr h₂), if_neg (not_lt.mpr h₃), if_neg (not_lt.mpr h₄), tree, emit]
  simp only [pairs, List.length_append, length_optPair, List.length_cons, List.length_nil, emitPairs_append,
    emitPairs_arr, emitPairs_u32, TrustMap.emitPairs_trust,
    emitPairs_arrayOf CborKey.subscriptions _ (fun s w => encodeWish_emit s w),
    emitPairs_arrayOf CborKey.publishes _ (fun p w => encodePublishWish_emit p w)]
  rfl

theorem typed_tree {m : HelloMsg} (h : m.Bounded) : Typed m.tree := by
  have hsubs : kHelloMaxSubscriptionWishes = 16 := rfl
  have hpubs : kHelloMaxPublishWishes = 8 := rfl
  obtain ⟨-, -, h₃, h₄⟩ := h
  refine .map ?_ ?_ ?_
  · have h₁ := optCount_le m.token
    have h₂ := optCount_le m.catalogEtag
    have h₃ := optCount_le (listOpt m.subscriptions)
    have h₄ := optCount_le (listOpt m.publishes)
    have h₅ := optCount_le (m.trust.filter TrustMap.any)
    have h₆ := optCount_le (nonzero m.deadmanWishMs)
    simp only [pairs, List.length_append, length_optPair, List.length_cons, List.length_nil]
    omega
  · simp only [pairs, List.forall_mem_append, forall_mem_optPair, List.forall_mem_cons]
    simp [CborKey.protoVer, CborKey.clientKind, CborKey.clientName, CborKey.instanceId, CborKey.token,
      CborKey.catalogEtag, CborKey.subscriptions, CborKey.publishes, CborKey.trust, CborKey.deadmanWishMs]
  · simp only [pairs, List.append_assoc, List.forall_mem_append, forall_mem_optPair, List.forall_mem_cons]
    refine ⟨⟨typed_u8 _, .text _, .text _, .bytes _, by simp⟩, fun v _ => .bytes _, fun v _ => .bytes _, ?_, ?_,
      fun t _ => t.typed_tree, fun v _ => typed_u32 v⟩
    · intro l hl
      obtain rfl := mem_listOpt hl
      exact typed_arrayOf SubscriptionWish.typed_tree (by omega)
    · intro l hl
      obtain rfl := mem_listOpt hl
      exact typed_arrayOf PublishWish.typed_tree (by omega)

/-- The fields of a message with a readable trust map are read as they were written. -/
theorem ofTree_tree {m : HelloMsg} (h : m.Bounded) (ht : ∀ t ∈ m.trust.filter TrustMap.any, t.Readable) :
    helloFields.ofTree m.tree = some m.collapse.fields := by
  obtain ⟨h₁, h₂, h₃, h₄⟩ := h
  rw [tree, helloFields, record_ofTree]
  simp only [pairs, List.append_assoc]
  rw [foldlM_resume { protoVer := some m.protoVer, clientKind := some m.clientKind, clientName := some m.clientName
                      instanceId := some m.instanceId } (by simp +decide [HelloFields.field, h₁, h₂]),
    foldlM_optPair (fun f o => { f with token := o }) id rfl (by simp +decide [HelloFields.field]),
    foldlM_optPair (fun f o => { f with catalogEtag := o }) id rfl (by simp +decide [HelloFields.field]),
    foldlM_optPair (fun f o => { f with subscriptions := o.getD [] }) (List.map SubscriptionWish.fields) rfl (by
      intro l hl
      obtain rfl := mem_listOpt hl
      simp +decide [HelloFields.field, CborTree.arrayOf, list_ofTree SubscriptionWish.ofTree_tree h₃]),
    foldlM_optPair (fun f o => { f with publishes := o.getD [] }) (List.map PublishWish.fields) rfl (by
      intro l hl
      obtain rfl := mem_listOpt hl
      simp +decide [HelloFields.field, CborTree.arrayOf, list_ofTree PublishWish.ofTree_tree h₄]),
    foldlM_optPair (fun f o => { f with trust := o }) id rfl (by
      intro t hmem
      simp +decide [HelloFields.field, TrustMap.ofTree_of_readable (ht t hmem)]),
    foldlM_optPair_last (fun f o => { f with deadmanWishMs := o.getD 0 }) id rfl (by
      simp +decide [HelloFields.field])]
  simp [fields, collapse, getD_listOpt, getD_nonzero]

/-- What is read back had a readable trust map. -/
theorem readable_of_ofTree {m : HelloMsg} {f : HelloFields} (h : helloFields.ofTree m.tree = some f) :
    ∀ t ∈ m.trust.filter TrustMap.any, t.Readable := by
  intro t ht
  by_contra hbad
  have hmem : (CborKey.trust, t.tree) ∈ m.pairs := by
    simp only [pairs, List.mem_append]
    exact .inl (.inr (mem_optPair ht))
  rw [tree, helloFields, record_ofTree, foldlM_none (fun s p => (HelloFields.field p.1 s).ofTree p.2) hmem (by
    simp +decide [HelloFields.field, TrustMap.ofTree_of_not_readable hbad])] at h
  cases h

/-- **A HELLO that was encoded decodes to itself iff its trust map is readable.** -/
theorem decode_iff {m m' : HelloMsg} {cap : Nat} {bs : Bytes} (hcap : cap < 2 ^ 64) (h : encodeHello m cap = some bs) :
    decodeHello bs = .ok m' ↔ (∀ t ∈ m.trust.filter TrustMap.any, t.Readable) ∧ m' = m.collapse := by
  have hbounded := encodeHello_bounded h
  rw [encodeHello_emit hbounded] at h
  obtain ⟨rfl, hfits, -⟩ := result_emit (typed_tree hbounded) hcap h
  rw [decodeHello, run_bind_encode hfits]
  constructor
  · rintro ⟨f, hf, hmsg⟩
    have ht := readable_of_ofTree hf
    obtain rfl := Option.some.inj ((ofTree_tree hbounded ht).symm.trans hf)
    exact ⟨ht, (Except.ok.inj (m.collapse.fields_msg.symm.trans hmsg)).symm⟩
  · rintro ⟨ht, rfl⟩
    exact ⟨_, ofTree_tree hbounded ht, fields_msg _⟩

end HelloMsg

end Wire

end SlopSync
