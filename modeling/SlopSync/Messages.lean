import SlopSync.F32
import SlopSync.Frame

/-! # Control messages

The message structures of `wire/messages/` and the encoders of both roles.  Inbound messages are kept
decoded; an encoder takes the capacity of the caller's buffer and returns the bytes, or nothing where the
source returns 0.  A `has_x` / `x` pair of the source is an `Option`. -/

namespace SlopSync

/-- Fixed-size byte arrays. -/
abbrev ByteArr (n : Nat) := { bs : Bytes // bs.length = n }

abbrev InstanceId := ByteArr 8
abbrev Token := ByteArr 16
abbrev Etag := ByteArr 8
abbrev Nonce := ByteArr 8

def ByteArr.zero (n : Nat) : ByteArr n := ⟨List.replicate n 0, List.length_replicate⟩

/-! ## Value maps -/

def kIntentMaxValueFields : Nat := 8

/-- One value of a `value` / `applied` / `body` map. -/
inductive IntentValue
  | u64 (v : UInt64)
  | i64 (v : Int64)
  | f32 (bits : UInt32)
  | bool (b : Bool)
  | tstr (s : Bytes)
  | bstr (s : Bytes)
  deriving DecidableEq, Repr

structure IntentValueField where
  key : UInt8
  value : IntentValue
  deriving DecidableEq, Repr

/-- `count` and `fields` of the source, as the list of the first `count` fields. -/
abbrev IntentValueMap := List IntentValueField

def encodeIntentValue (w : CborWriter) : IntentValue → CborWriter
  | .u64 v => w.uintVal v.toNat
  | .i64 v => w.intVal v.toInt
  | .f32 b => w.f32Val b
  | .bool b => w.boolVal b
  | .tstr s => w.tstrVal s
  | .bstr s => w.bstrVal s

/-- The fields of a value map, in the caller's order. -/
def encodeValueFields (w : CborWriter) (fs : IntentValueMap) : CborWriter :=
  fs.foldl (fun w f => encodeIntentValue (w.key f.key.toNat) f.value) w

/-! ## ECHO, NACK, GOODBYE, EVENT -/

structure EchoMsg where
  intentId : UInt16
  cfgGen : UInt16
  applied : IntentValueMap := []
  deriving DecidableEq, Repr

def encodeEcho (m : EchoMsg) (cap : Nat) : Option Bytes :=
  if kIntentMaxValueFields < m.applied.length then none
  else
    let w : CborWriter := { cap }
    let w := w.mapHeader 3
    let w := (w.key CborKey.cfgGen).uintVal m.cfgGen.toNat
    let w := (w.key CborKey.intentId).uintVal m.intentId.toNat
    let w := (w.key CborKey.applied).mapHeader m.applied.length
    (encodeValueFields w m.applied).result

/-- The UTF-8 bytes of a text. -/
def textBytes (s : String) : Bytes := s.toUTF8.data.toList

def kNackMaxDetailBytes : Nat := 48

structure NackMsg where
  code : NackCode
  channelId : Option UInt16 := none
  intentId : Option UInt16 := none
  detail : Option String := none
  retryAfterMs : Option UInt32 := none
  intentSeq : Option UInt16 := none
  deriving DecidableEq, Repr

/-- Write `k: v` when `v` is present. -/
def CborWriter.optKey {α : Type} (w : CborWriter) (k : Nat) (o : Option α) (f : CborWriter → α → CborWriter) :
    CborWriter :=
  match o with
  | none => w
  | some a => f (w.key k) a

def optCount {α : Type} (o : Option α) : Nat := if o.isSome then 1 else 0

def encodeNack (m : NackMsg) (cap : Nat) : Option Bytes :=
  if m.detail.any (fun d => decide (kNackMaxDetailBytes < (textBytes d).length)) then none
  else
    let nKeys := 1 + optCount m.channelId + optCount m.detail + optCount m.intentId +
      optCount m.retryAfterMs + optCount m.intentSeq
    let w : CborWriter := { cap }
    let w := w.mapHeader nKeys
    let w := w.optKey CborKey.channelId m.channelId (fun w v => w.uintVal v.toNat)
    let w := (w.key CborKey.code).uintVal m.code.code.toNat
    let w := w.optKey CborKey.detail m.detail (fun w d => w.tstrVal (textBytes d))
    let w := w.optKey CborKey.intentId m.intentId (fun w v => w.uintVal v.toNat)
    let w := w.optKey CborKey.retryAfterMs m.retryAfterMs (fun w v => w.uintVal v.toNat)
    let w := w.optKey CborKey.intentSeq m.intentSeq (fun w v => w.uintVal v.toNat)
    w.result

structure GoodbyeMsg where
  code : NackCode
  detail : Option String := none
  deriving DecidableEq, Repr

def encodeGoodbye (m : GoodbyeMsg) (cap : Nat) : Option Bytes :=
  if m.detail.any (fun d => decide (kNackMaxDetailBytes < (textBytes d).length)) then none
  else
    let w : CborWriter := { cap }
    let w := w.mapHeader (1 + optCount m.detail)
    let w := (w.key CborKey.code).uintVal m.code.code.toNat
    let w := w.optKey CborKey.detail m.detail (fun w d => w.tstrVal (textBytes d))
    w.result

structure EventMsg where
  channelId : UInt16
  timestamp : UInt32
  eventKind : UInt16
  seqOfState : Option UInt16 := none
  body : Option IntentValueMap := none
  deriving DecidableEq, Repr

def encodeEvent (m : EventMsg) (cap : Nat) : Option Bytes :=
  if m.body.any (fun b => decide (kIntentMaxValueFields < b.length)) then none
  else
    let w : CborWriter := { cap }
    let w := w.mapHeader (3 + optCount m.body + optCount m.seqOfState)
    let w := (w.key CborKey.channelId).uintVal m.channelId.toNat
    let w := (w.key CborKey.timestamp).uintVal m.timestamp.toNat
    let w := (w.key CborKey.eventKind).uintVal m.eventKind.toNat
    let w := w.optKey CborKey.seqOfState m.seqOfState (fun w v => w.uintVal v.toNat)
    let w := w.optKey CborKey.body m.body (fun w b => encodeValueFields (w.mapHeader b.length) b)
    w.result

/-! ## The trust sub-map -/

structure TrustMap where
  clientVer : Option Bytes := none
  clientNonce : Option Nonce := none
  sigRequest : Option Bool := none
  presentationMode : Option UInt8 := none
  tokenProof : Option Token := none
  hubPubkey : Option Bytes := none
  welcomeSig : Option Bytes := none
  pairingModes : Option UInt8 := none
  deriving DecidableEq, Repr

def TrustMap.keyCount (t : TrustMap) : Nat :=
  optCount t.clientVer + optCount t.clientNonce + optCount t.sigRequest + optCount t.hubPubkey +
    optCount t.welcomeSig + optCount t.tokenProof + optCount t.presentationMode + optCount t.pairingModes

def TrustMap.any (t : TrustMap) : Bool := t.keyCount != 0

def encodeTrustMap (w : CborWriter) (t : TrustMap) : CborWriter :=
  let w := (w.key CborKey.trust).mapHeader t.keyCount
  let w := w.optKey 1 t.clientVer CborWriter.tstrVal
  let w := w.optKey 2 t.clientNonce (fun w b => w.bstrVal b.val)
  let w := w.optKey 3 t.sigRequest CborWriter.boolVal
  let w := w.optKey 4 t.hubPubkey CborWriter.bstrVal
  let w := w.optKey 5 t.welcomeSig CborWriter.bstrVal
  let w := w.optKey 6 t.tokenProof (fun w b => w.bstrVal b.val)
  let w := w.optKey 7 t.presentationMode (fun w v => w.uintVal v.toNat)
  w.optKey 8 t.pairingModes (fun w v => w.uintVal v.toNat)

/-- The one-key envelope of AUTH and HUB_SIG; an empty one is never sent. -/
def encodeTrustEnvelope (t : TrustMap) (cap : Nat) : Option Bytes :=
  if !t.any then none else (encodeTrustMap (({ cap } : CborWriter).mapHeader 1) t).result

/-- `client_nonce || session_id || boot_id`. -/
def hubSigMaterial (nonce : Nonce) (sid bootId : UInt32) : Bytes := nonce.val ++ le32 sid ++ le32 bootId

/-! ## Grants -/

structure Grant where
  channelId : UInt16
  grantedRateHz : F32
  priority : Priority
  deriving DecidableEq, Repr

structure GrantedPublish where
  channelId : UInt16
  grantedRateHz : F32
  burst : Option F32 := none
  curveFamily : Option UInt8 := none
  requestedCurveFamily : Option UInt8 := none
  deriving DecidableEq, Repr

def kWelcomeMaxGrants : Nat := 16
def kWelcomeMaxGrantedPublishes : Nat := 8

section

-- the binary32 pattern of a value
variable (bits : F32 → UInt32)

def encodeGrantEntry (w : CborWriter) (g : Grant) : CborWriter :=
  let w := w.mapHeader 3
  let w := (w.key CborKey.priority).uintVal g.priority.code.toNat
  let w := (w.key CborKey.grantedRateHz).f32Val (bits g.grantedRateHz)
  (w.key CborKey.channelId).uintVal g.channelId.toNat

def encodeGrantedPublish (w : CborWriter) (gp : GrantedPublish) : CborWriter :=
  let w := w.mapHeader (2 + optCount gp.burst + optCount gp.curveFamily + optCount gp.requestedCurveFamily)
  let w := (w.key CborKey.grantedRateHz).f32Val (bits gp.grantedRateHz)
  let w := (w.key CborKey.channelId).uintVal gp.channelId.toNat
  let w := w.optKey CborKey.burst gp.burst (fun w b => w.f32Val (bits b))
  let w := w.optKey CborKey.curveFamily gp.curveFamily (fun w v => w.uintVal v.toNat)
  w.optKey CborKey.requestedCurveFamily gp.requestedCurveFamily (fun w v => w.uintVal v.toNat)

/-- The `grants` array and, when there are any, the `granted_publishes` array. -/
def encodeGrantLists (w : CborWriter) (gs : List Grant) (ps : List GrantedPublish) : CborWriter :=
  let w := (w.key CborKey.grants).arrayHeader gs.length
  let w := gs.foldl (encodeGrantEntry bits) w
  if ps.isEmpty then w
  else ps.foldl (encodeGrantedPublish bits) ((w.key CborKey.grantedPublishes).arrayHeader ps.length)

structure GrantMsg where
  roles : Option AccessLevel := none
  grants : List Grant := []
  grantedPublishes : List GrantedPublish := []
  deriving DecidableEq, Repr

def encodeGrant (m : GrantMsg) (cap : Nat) : Option Bytes :=
  if kWelcomeMaxGrants < m.grants.length then none
  else if kWelcomeMaxGrantedPublishes < m.grantedPublishes.length then none
  else
    let w : CborWriter := { cap }
    let w := w.mapHeader (1 + (if m.grantedPublishes.isEmpty then 0 else 1) + optCount m.roles)
    let w := w.optKey CborKey.roles m.roles (fun w r => w.uintVal r.code.toNat)
    (encodeGrantLists bits w m.grants m.grantedPublishes).result

/-! ## WELCOME -/

structure WelcomeLimits where
  maxFrame : Nat
  maxSubscriptions : Nat
  retainedPending : Nat
  maxSubscriptionsPerFrame : Nat
  deriving DecidableEq, Repr

/-- Who the hub says it is.  An empty text is omitted. -/
structure IdentityInfo where
  product : Bytes := []
  fwVersion : Bytes := []
  hubName : Bytes := []
  hubInstanceId : Option UInt64 := none
  deriving DecidableEq, Repr

def textOpt (s : Bytes) : Option Bytes := if s.isEmpty then none else some s

def IdentityInfo.keyCount (i : IdentityInfo) : Nat :=
  optCount (textOpt i.product) + optCount (textOpt i.fwVersion) + optCount (textOpt i.hubName) +
    optCount i.hubInstanceId

def encodeIdentity (w : CborWriter) (i : IdentityInfo) : CborWriter :=
  let w := w.mapHeader i.keyCount
  let w := w.optKey 1 (textOpt i.product) CborWriter.tstrVal
  let w := w.optKey 2 (textOpt i.fwVersion) CborWriter.tstrVal
  let w := w.optKey 3 (textOpt i.hubName) CborWriter.tstrVal
  w.optKey 5 i.hubInstanceId (fun w v => w.uintVal v.toNat)

structure WelcomeMsg where
  sessionId : UInt32
  bootId : UInt32
  catalogEtag : Etag
  cfgGen : UInt16
  limits : WelcomeLimits
  roles : AccessLevel
  deadmanMs : UInt32
  deadmanPolicy : UInt8
  nonce : Nonce
  grants : List Grant := []
  grantedPublishes : List GrantedPublish := []
  identity : Option IdentityInfo := none
  wsPort : UInt16 := 0
  ipv4 : UInt32 := 0
  trust : Option TrustMap := none
  deriving DecidableEq, Repr

def encodeWelcomeLimits (w : CborWriter) (l : WelcomeLimits) : CborWriter :=
  let hasPerFrame := 0 < l.maxSubscriptionsPerFrame
  let w := w.mapHeader (3 + (if hasPerFrame then 1 else 0))
  let w := (w.key 1).uintVal l.maxFrame
  let w := (w.key 2).uintVal l.maxSubscriptions
  let w := (w.key 3).uintVal l.retainedPending
  if hasPerFrame then (w.key 4).uintVal l.maxSubscriptionsPerFrame else w

def encodeWelcome (m : WelcomeMsg) (cap : Nat) : Option Bytes :=
  let identity := m.identity.filter (fun i => i.keyCount != 0)
  let trust := m.trust.filter TrustMap.any
  let wsPort := if m.wsPort = 0 then none else some m.wsPort
  let ipv4 := if m.ipv4 = 0 then none else some m.ipv4
  if kWelcomeMaxGrants < m.grants.length then none
  else if kWelcomeMaxGrantedPublishes < m.grantedPublishes.length then none
  else if identity.any (fun i => 32 < i.product.length || 24 < i.fwVersion.length || 32 < i.hubName.length)
  then none
  else
    let w : CborWriter := { cap }
    let w := w.mapHeader (11 + (if m.grantedPublishes.isEmpty then 0 else 1) + optCount identity +
      optCount trust + optCount wsPort + optCount ipv4)
    let w := (w.key CborKey.protoVer).uintVal Limits.protocolVersion.toNat
    let w := (w.key CborKey.sessionId).uintVal m.sessionId.toNat
    let w := (w.key CborKey.bootId).uintVal m.bootId.toNat
    let w := (w.key CborKey.catalogEtag).bstrVal m.catalogEtag.val
    let w := (w.key CborKey.cfgGen).uintVal m.cfgGen.toNat
    let w := encodeWelcomeLimits (w.key CborKey.limits) m.limits
    let w := (w.key CborKey.roles).uintVal m.roles.code.toNat
    let w := (w.key CborKey.deadmanMs).uintVal m.deadmanMs.toNat
    let w := (w.key CborKey.deadmanPolicy).uintVal m.deadmanPolicy.toNat
    let w := (w.key CborKey.nonce).bstrVal m.nonce.val
    let w := encodeGrantLists bits w m.grants m.grantedPublishes
    let w := w.optKey CborKey.identity identity encodeIdentity
    let w := match trust with
      | none => w
      | some t => encodeTrustMap w t
    let w := w.optKey CborKey.wsPort wsPort (fun w v => w.uintVal v.toNat)
    let w := w.optKey CborKey.ipv4 ipv4 (fun w v => w.uintVal v.toNat)
    w.result

end

/-! ## Pairing -/

structure PairReqMsg where
  instanceId : InstanceId
  pinProof : Option Token := none   -- absent = a bare knock
  deriving DecidableEq, Repr

def encodePairReq (m : PairReqMsg) (cap : Nat) : Option Bytes :=
  let w : CborWriter := { cap }
  let w := w.mapHeader (1 + optCount m.pinProof)
  let w := (w.key CborKey.instanceId).bstrVal m.instanceId.val
  let w := w.optKey CborKey.pinProof m.pinProof (fun w b => w.bstrVal b.val)
  w.result

structure PairGrantMsg where
  token : Token
  roles : AccessLevel
  trust : Option TrustMap := none
  deriving DecidableEq, Repr

def encodePairGrant (m : PairGrantMsg) (cap : Nat) : Option Bytes :=
  let trust := m.trust.filter TrustMap.any
  let w : CborWriter := { cap }
  let w := w.mapHeader (2 + optCount trust)
  let w := (w.key CborKey.token).bstrVal m.token.val
  let w := (w.key CborKey.roles).uintVal m.roles.code.toNat
  let w := match trust with
    | none => w
    | some t => encodeTrustMap w t
  w.result

section

open CborWriter

/-- A sub-map with nothing but a hub key of at most `m` bytes. -/
theorem fits_hubPubkey {w : CborWriter} {n : Nat} {f : CborFrame} {fs : List CborFrame} {key : Bytes} (h : w.Fits n)
    (hs : w.stack = f :: fs) (hm : f.isMap = true) (hk : f.lastKey.any (CborKey.trust ≤ ·) = false)
    (hr : f.remaining = 2) (hd : w.stack.length < kMaxDepth) (hlen : key.length ≤ 33) (hc : n + 39 ≤ w.cap) :
    (encodeTrustMap w { hubPubkey := some key }).Fits (n + 39) := by
  obtain ⟨h₁, hs₁, hc₁⟩ := fits_key (m := 2) h hs hm hk (by decide) (by omega)
  have hstack : (w.key CborKey.trust).stack = ⟨true, 1, some CborKey.trust⟩ :: fs := by
    rw [hs₁]
    obtain ⟨isMap, remaining, lastKey⟩ := f
    cases hm
    cases hr
    rfl
  have hdepth : (w.key CborKey.trust).stack.length < kMaxDepth := by
    rw [hstack]
    rw [hs] at hd
    exact hd
  obtain ⟨h₂, hs₂, hc₂⟩ := fits_mapHeader (k := 1) h₁ hdepth (by decide) (by decide) (by omega)
  obtain ⟨h₃, hs₃, hc₃⟩ := fits_key (m := 1) (x := 4) h₂ hs₂ rfl rfl (by decide) (by omega)
  obtain ⟨h₄, hs₄, hc₄⟩ := fits_bstrVal h₃ (s := key) (by omega) (by omega)
  exact ⟨h₄.ok, h₄.used.trans (by omega)⟩

/-- Token and role, at the head of a grant with `k` keys. -/
theorem fits_grantHead (token : Token) (roles : AccessLevel) {k : Nat} (hk : 2 ≤ k) (hk' : k ≤ 3) :
    ∃ w : CborWriter, ((((({ cap := 96 } : CborWriter).mapHeader k).key CborKey.token).bstrVal token.val).key
      CborKey.roles).uintVal roles.code.toNat = w ∧ w.Fits 22 ∧ w.cap = 96 ∧
      (k = 3 → w.stack = [⟨true, 2, some CborKey.roles⟩]) := by
  have hrole : (head 0 roles.code.toNat).length ≤ 1 := by cases roles <;> decide
  have htok : token.val.length = 16 := token.property
  have h₀ : ({ cap := 96 } : CborWriter).Fits 0 := ⟨rfl, Nat.le_refl 0⟩
  obtain ⟨h₁, hs₁, hc₁⟩ := fits_mapHeader (k := k) h₀ (by decide) (by omega) (by omega) (by decide)
  obtain ⟨h₂, hs₂, hc₂⟩ := fits_key (m := 1) (f := ⟨true, k * 2, none⟩) (g := []) (x := CborKey.token) h₁ hs₁ rfl rfl
    (by decide) (by rw [hc₁]; decide)
  obtain ⟨h₃, hs₃, hc₃⟩ := fits_bstrVal (s := token.val) h₂ (by omega) (by rw [hc₂, hc₁, htok]; decide)
  have hstack₃ : ((((({ cap := 96 } : CborWriter).mapHeader k).key CborKey.token).bstrVal token.val)).stack =
      [⟨true, k * 2 - 2, some CborKey.token⟩] := by
    have hk₁ : ¬k * 2 ≤ 1 := by omega
    have hk₂ : ¬k * 2 - 1 ≤ 1 := by omega
    rw [hs₃, hs₂]
    simp [consume, hk₁, hk₂]
    omega
  obtain ⟨h₄, hs₄, hc₄⟩ := fits_key (m := 1) (x := CborKey.roles) h₃ hstack₃ rfl rfl (by decide) (by
    rw [hc₃, hc₂, hc₁, htok]; decide)
  obtain ⟨h₅, hs₅, hc₅⟩ := fits_uintVal h₄ hrole (by rw [hc₄, hc₃, hc₂, hc₁, htok]; decide)
  refine ⟨_, rfl, ⟨h₅.ok, h₅.used.trans (by omega)⟩, by rw [hc₅, hc₄, hc₃, hc₂, hc₁], ?_⟩
  rintro rfl
  rw [hs₅, hs₄]
  rfl

/-- A grant always encodes. -/
theorem encodePairGrant_isSome (token : Token) (roles : AccessLevel) {trust : Option TrustMap}
    (h : trust = none ∨ ∃ key : Bytes, key.length ≤ 33 ∧ trust = some { hubPubkey := some key }) :
    (encodePairGrant { token, roles, trust } 96).isSome = true := by
  rcases h with rfl | ⟨key, hlen, rfl⟩
  · obtain ⟨w, hw, hfits, -⟩ := fits_grantHead token roles (k := 2) (by decide) (by decide)
    obtain ⟨bs, hbs, -⟩ := hfits.result
    have henc : encodePairGrant { token, roles, trust := none } 96 = some bs := by rw [← hbs, ← hw]; rfl
    rw [henc]
    rfl
  · obtain ⟨w, hw, hfits, hcap, hstack⟩ := fits_grantHead token roles (k := 3) (by decide) (by decide)
    have hall := fits_hubPubkey hfits (hstack rfl) rfl rfl rfl (by rw [hstack rfl]; decide) hlen (by
      rw [hcap]; decide)
    obtain ⟨bs, hbs, -⟩ := hall.result
    have henc : encodePairGrant { token, roles, trust := some { hubPubkey := some key } } 96 = some bs := by
      rw [← hbs, ← hw]
      rfl
    rw [henc]
    rfl

end

/-! ## HELLO and SUBSCRIBE -/

structure SubscriptionWish where
  channelId : UInt16
  rateHz : F32 := 0
  priority : UInt8 := 0
  deriving DecidableEq, Repr

structure PublishWish where
  channelId : UInt16
  rateHz : F32 := 0
  burst : Option F32 := none
  curveFamily : Option UInt8 := none
  deriving DecidableEq, Repr

structure HelloMsg where
  protoVer : UInt8 := Limits.protocolVersion
  clientKind : Bytes := []
  clientName : Bytes := []
  instanceId : InstanceId
  token : Option Token := none
  catalogEtag : Option Etag := none
  subscriptions : List SubscriptionWish := []
  publishes : List PublishWish := []
  trust : Option TrustMap := none
  deadmanWishMs : UInt32 := 0
  deriving DecidableEq, Repr

def kHelloMaxSubscriptionWishes : Nat := 16
def kHelloMaxPublishWishes : Nat := 8
def kHelloMaxClientKindBytes : Nat := 16
def kHelloMaxClientNameBytes : Nat := 32
def kSubscribeMaxWishes : Nat := 16

section

-- the binary32 pattern of a value
variable (bits : F32 → UInt32)

def encodeWish (w : CborWriter) (s : SubscriptionWish) : CborWriter :=
  let w := w.mapHeader 3
  let w := (w.key CborKey.rateHz).f32Val (bits s.rateHz)
  let w := (w.key CborKey.priority).uintVal s.priority.toNat
  (w.key CborKey.channelId).uintVal s.channelId.toNat

def encodePublishWish (w : CborWriter) (p : PublishWish) : CborWriter :=
  let w := w.mapHeader (2 + optCount p.burst + optCount p.curveFamily)
  let w := (w.key CborKey.rateHz).f32Val (bits p.rateHz)
  let w := (w.key CborKey.channelId).uintVal p.channelId.toNat
  let w := w.optKey CborKey.burst p.burst (fun w b => w.f32Val (bits b))
  w.optKey CborKey.curveFamily p.curveFamily (fun w v => w.uintVal v.toNat)

/-- A list that is left out when it is empty. -/
def listOpt {α : Type} (l : List α) : Option (List α) := if l.isEmpty then none else some l

def encodeHello (m : HelloMsg) (cap : Nat) : Option Bytes :=
  let subscriptions := listOpt m.subscriptions
  let publishes := listOpt m.publishes
  let trust := m.trust.filter TrustMap.any
  let deadmanWishMs := if m.deadmanWishMs = 0 then none else some m.deadmanWishMs
  if kHelloMaxClientKindBytes < m.clientKind.length then none
  else if kHelloMaxClientNameBytes < m.clientName.length then none
  else if kHelloMaxSubscriptionWishes < m.subscriptions.length then none
  else if kHelloMaxPublishWishes < m.publishes.length then none
  else
    let w : CborWriter := { cap }
    let w := w.mapHeader (4 + optCount m.token + optCount m.catalogEtag + optCount subscriptions +
      optCount publishes + optCount trust + optCount deadmanWishMs)
    let w := (w.key CborKey.protoVer).uintVal m.protoVer.toNat
    let w := (w.key CborKey.clientKind).tstrVal m.clientKind
    let w := (w.key CborKey.clientName).tstrVal m.clientName
    let w := (w.key CborKey.instanceId).bstrVal m.instanceId.val
    let w := w.optKey CborKey.token m.token (fun w b => w.bstrVal b.val)
    let w := w.optKey CborKey.catalogEtag m.catalogEtag (fun w b => w.bstrVal b.val)
    let w := w.optKey CborKey.subscriptions subscriptions
      (fun w l => l.foldl (encodeWish bits) (w.arrayHeader l.length))
    let w := w.optKey CborKey.publishes publishes
      (fun w l => l.foldl (encodePublishWish bits) (w.arrayHeader l.length))
    let w := match trust with
      | none => w
      | some t => encodeTrustMap w t
    let w := w.optKey CborKey.deadmanWishMs deadmanWishMs (fun w v => w.uintVal v.toNat)
    w.result

def encodeSubscribe (wishes : List SubscriptionWish) (cap : Nat) : Option Bytes :=
  if kSubscribeMaxWishes < wishes.length then none
  else
    let w : CborWriter := { cap }
    let w := ((w.mapHeader 1).key CborKey.subscriptions).arrayHeader wishes.length
    (wishes.foldl (encodeWish bits) w).result

end

/-! ## INTENT, blobs and probes -/

structure IntentMsg where
  intentId : UInt16
  channelId : UInt16
  value : IntentValueMap := []
  precondition : Option UInt16 := none
  takeover : Bool := false
  deriving DecidableEq, Repr

/-- The client always says whether it takes over. -/
def encodeIntent (m : IntentMsg) (cap : Nat) : Option Bytes :=
  if kIntentMaxValueFields < m.value.length then none
  else
    let w : CborWriter := { cap }
    let w := w.mapHeader (4 + optCount m.precondition)
    let w := (w.key CborKey.channelId).uintVal m.channelId.toNat
    let w := (w.key CborKey.intentId).uintVal m.intentId.toNat
    let w := (w.key CborKey.value).mapHeader m.value.length
    let w := encodeValueFields w m.value
    let w := w.optKey CborKey.precondition m.precondition (fun w v => w.uintVal v.toNat)
    let w := (w.key CborKey.takeover).boolVal m.takeover
    w.result

/-- Which blob a transfer is about. -/
structure BlobId where
  ns : UInt8 := 0
  storeId : Option UInt8 := none
  slot : Option UInt8 := none
  generation : Option UInt16 := none
  deriving DecidableEq, Repr

def BlobId.isCatalog (id : BlobId) : Bool := id.ns == 0

structure BlobReqMsg where
  blob : BlobId := {}
  chunks : Option (List UInt16) := none   -- absent = the whole blob
  deriving DecidableEq, Repr

structure ProbeResult where
  bytesReceived : UInt32
  spanMs : UInt32
  lossPctX100 : UInt32
  rttMs : UInt32
  deriving DecidableEq, Repr

def encodeProbeReport (m : ProbeResult) (cap : Nat) : Option Bytes :=
  let w : CborWriter := { cap }
  let w := ((w.mapHeader 1).key CborKey.probeResult).mapHeader 4
  let w := (w.key 1).uintVal m.bytesReceived.toNat
  let w := (w.key 2).uintVal m.spanMs.toNat
  let w := (w.key 3).uintVal m.lossPctX100.toNat
  let w := (w.key 4).uintVal m.rttMs.toNat
  w.result

end SlopSync
