import SlopSync.Codec.Hello

/-! # WELCOME and GRANT

`wire/messages/welcome.hpp` and `wire/messages/grant.hpp`, over every value a field can take. -/

namespace SlopSync

open CborWriter CborReader CborDecoder

namespace Wire

/-! ## The messages -/

/-- A subscription granted. -/
structure Grant where
  channelId : UInt16
  grantedRateHz : UInt32   -- binary32
  priority : UInt8
  deriving DecidableEq, Repr

/-- A publish wish granted. -/
structure GrantedPublish where
  channelId : UInt16
  grantedRateHz : UInt32
  burst : Option UInt32 := none
  curveFamily : Option UInt8 := none
  requestedCurveFamily : Option UInt8 := none
  deriving DecidableEq, Repr

/-- The limits the hub announces. -/
structure WelcomeLimits where
  maxFrame : UInt32
  maxSubscriptions : UInt32
  retainedPending : UInt32
  maxSubscriptionsPerFrame : UInt32 := 0
  deriving DecidableEq, Repr

/-- WELCOME, as the hub sends it. -/
structure WelcomeMsg where
  protoVer : UInt8
  sessionId : UInt32
  bootId : UInt32
  catalogEtag : Etag
  cfgGen : UInt16
  limits : WelcomeLimits
  roles : UInt8
  deadmanMs : UInt32
  deadmanPolicy : UInt8
  nonce : Nonce
  grants : List Grant := []
  grantedPublishes : List GrantedPublish := []
  identity : Option IdentityInfo := none
  wsPort : UInt16 := 0
  ipv4 : UInt32 := 0
  trust : Option TrustMap := none
  deriving DecidableEq, Repr

/-- GRANT: roles, subscriptions and publishes that changed. -/
structure GrantMsg where
  roles : Option UInt8 := none
  grants : List Grant := []
  grantedPublishes : List GrantedPublish := []
  deriving DecidableEq, Repr

def kIdentityProductMaxBytes : Nat := 32
def kIdentityFwVersionMaxBytes : Nat := 24
def kIdentityHubNameMaxBytes : Nat := 32
def kGrantMsgMaxGrants : Nat := 16

/-! ## Encoders -/

/-- A port that is left out when it is zero. -/
def nonzero16 (v : UInt16) : Option UInt16 := if v = 0 then none else some v

/-- A grant: three keys, always. -/
def encodeGrantEntry (w : CborWriter) (g : Grant) : CborWriter :=
  let w := w.mapHeader 3
  let w := (w.key CborKey.priority).uintVal g.priority.toNat
  let w := (w.key CborKey.grantedRateHz).f32Val g.grantedRateHz
  (w.key CborKey.channelId).uintVal g.channelId.toNat

/-- A granted publish: burst and curve family where they are given. -/
def encodeGrantedPublish (w : CborWriter) (gp : GrantedPublish) : CborWriter :=
  let w := w.mapHeader (2 + optCount gp.burst + optCount gp.curveFamily + optCount gp.requestedCurveFamily)
  let w := (w.key CborKey.grantedRateHz).f32Val gp.grantedRateHz
  let w := (w.key CborKey.channelId).uintVal gp.channelId.toNat
  let w := w.optKey CborKey.burst gp.burst CborWriter.f32Val
  let w := w.optKey CborKey.curveFamily gp.curveFamily fun w v => w.uintVal v.toNat
  w.optKey CborKey.requestedCurveFamily gp.requestedCurveFamily fun w v => w.uintVal v.toNat

/-- The `grants` array and, when there are any, the `granted_publishes` array. -/
def encodeGrantLists (w : CborWriter) (gs : List Grant) (ps : List GrantedPublish) : CborWriter :=
  let w := gs.foldl encodeGrantEntry ((w.key CborKey.grants).arrayHeader gs.length)
  w.optKey CborKey.grantedPublishes (listOpt ps) fun w l => l.foldl encodeGrantedPublish (w.arrayHeader l.length)

/-- The limits: the fourth key only when it is not zero. -/
def encodeWelcomeLimits (w : CborWriter) (l : WelcomeLimits) : CborWriter :=
  let perFrame := nonzero l.maxSubscriptionsPerFrame
  let w := w.mapHeader (3 + optCount perFrame)
  let w := (w.key 1).uintVal l.maxFrame.toNat
  let w := (w.key 2).uintVal l.maxSubscriptions.toNat
  let w := (w.key 3).uintVal l.retainedPending.toNat
  w.optKey 4 perFrame fun w v => w.uintVal v.toNat

/-- Refused when a list or a text is too long; sub-maps with nothing in them are left out. -/
def encodeWelcome (m : WelcomeMsg) (cap : Nat) : Option Bytes :=
  let identity := m.identity.filter (fun i => i.keyCount != 0)
  let trust := m.trust.filter TrustMap.any
  let wsPort := nonzero16 m.wsPort
  let ipv4 := nonzero m.ipv4
  if kWelcomeMaxGrants < m.grants.length then none
  else if kWelcomeMaxGrantedPublishes < m.grantedPublishes.length then none
  else if identity.any (fun i => kIdentityProductMaxBytes < i.product.length ||
    kIdentityFwVersionMaxBytes < i.fwVersion.length || kIdentityHubNameMaxBytes < i.hubName.length) then none
  else
    let w : CborWriter := { cap }
    let w := w.mapHeader (11 + optCount (listOpt m.grantedPublishes) + optCount identity + optCount trust +
      optCount wsPort + optCount ipv4)
    let w := (w.key CborKey.protoVer).uintVal m.protoVer.toNat
    let w := (w.key CborKey.sessionId).uintVal m.sessionId.toNat
    let w := (w.key CborKey.bootId).uintVal m.bootId.toNat
    let w := (w.key CborKey.catalogEtag).bstrVal m.catalogEtag.val
    let w := (w.key CborKey.cfgGen).uintVal m.cfgGen.toNat
    let w := encodeWelcomeLimits (w.key CborKey.limits) m.limits
    let w := (w.key CborKey.roles).uintVal m.roles.toNat
    let w := (w.key CborKey.deadmanMs).uintVal m.deadmanMs.toNat
    let w := (w.key CborKey.deadmanPolicy).uintVal m.deadmanPolicy.toNat
    let w := (w.key CborKey.nonce).bstrVal m.nonce.val
    let w := encodeGrantLists w m.grants m.grantedPublishes
    let w := w.optKey CborKey.identity identity encodeIdentity
    let w := match trust with
      | none => w
      | some t => encodeTrustMap w t
    let w := w.optKey CborKey.wsPort wsPort fun w v => w.uintVal v.toNat
    let w := w.optKey CborKey.ipv4 ipv4 fun w v => w.uintVal v.toNat
    w.result

/-- Refused when either list is too long. -/
def encodeGrant (m : GrantMsg) (cap : Nat) : Option Bytes :=
  if kGrantMsgMaxGrants < m.grants.length then none
  else if kWelcomeMaxGrantedPublishes < m.grantedPublishes.length then none
  else
    let w : CborWriter := { cap }
    let w := w.mapHeader (1 + optCount (listOpt m.grantedPublishes) + optCount m.roles)
    let w := w.optKey CborKey.roles m.roles fun w v => w.uintVal v.toNat
    (encodeGrantLists w m.grants m.grantedPublishes).result

/-! ## Decoders -/

/-- A grant as it is on the wire. -/
structure GrantFields where
  channelId : UInt64 := 0
  grantedRateHz : UInt32 := 0
  priority : UInt64 := 0
  deriving DecidableEq, Repr

/-- What has been read of a granted publish; absent integers are zero. -/
structure GrantedPublishFields where
  channelId : UInt64 := 0
  grantedRateHz : UInt32 := 0
  burst : Option UInt32 := none
  curveFamily : Option UInt8 := none
  requestedCurveFamily : Option UInt8 := none
  deriving DecidableEq, Repr

/-- What has been read of the limits. -/
structure LimitsFields where
  maxFrame : UInt64 := 0
  maxSubscriptions : UInt64 := 0
  retainedPending : UInt64 := 0
  maxSubscriptionsPerFrame : UInt64 := 0
  deriving DecidableEq, Repr

/-- What has been read of a WELCOME. -/
structure WelcomeFields where
  protoVer : Option UInt8 := none
  sessionId : Option UInt64 := none
  bootId : Option UInt64 := none
  catalogEtag : Option Etag := none
  cfgGen : Option UInt64 := none
  limits : Option LimitsFields := none
  roles : Option UInt64 := none
  deadmanMs : Option UInt64 := none
  deadmanPolicy : Option UInt64 := none
  nonce : Option Nonce := none
  grants : Option (List GrantFields) := none
  grantedPublishes : List GrantedPublishFields := []
  identity : Option IdentityInfo := none
  wsPort : UInt16 := 0
  ipv4 : UInt32 := 0
  trust : Option TrustMap := none
  deriving DecidableEq, Repr

/-- What has been read of a GRANT. -/
structure GrantMsgFields where
  roles : Option UInt8 := none
  grants : Option (List GrantFields) := none
  grantedPublishes : List GrantedPublishFields := []
  deriving DecidableEq, Repr

/-- One key of a grant; an unknown key is skipped. -/
def GrantFields.field (k : Nat) (f : GrantFields) : CborDecoder GrantFields :=
  if k = CborKey.channelId then uint.map fun v => { f with channelId := v }
  else if k = CborKey.grantedRateHz then f32.map fun v => { f with grantedRateHz := v }
  else if k = CborKey.priority then uint.map fun v => { f with priority := v }
  else skip f

/-- One key of a granted publish. -/
def GrantedPublishFields.field (k : Nat) (f : GrantedPublishFields) : CborDecoder GrantedPublishFields :=
  if k = CborKey.grantedRateHz then f32.map fun v => { f with grantedRateHz := v }
  else if k = CborKey.channelId then uint.map fun v => { f with channelId := v }
  else if k = CborKey.burst then f32.map fun v => { f with burst := some v }
  else if k = CborKey.curveFamily then u8.map fun v => { f with curveFamily := some v }
  else if k = CborKey.requestedCurveFamily then u8.map fun v => { f with requestedCurveFamily := some v }
  else skip f

/-- One key of the limits. -/
def LimitsFields.field (k : Nat) (f : LimitsFields) : CborDecoder LimitsFields :=
  if k = 1 then uint.map fun v => { f with maxFrame := v }
  else if k = 2 then uint.map fun v => { f with maxSubscriptions := v }
  else if k = 3 then uint.map fun v => { f with retainedPending := v }
  else if k = 4 then uint.map fun v => { f with maxSubscriptionsPerFrame := v }
  else skip f

/-- The `identity` sub-map; `info` and unknown keys are skipped. -/
def identityField (k : Nat) (i : IdentityInfo) : CborDecoder IdentityInfo :=
  if k = 1 then (text kIdentityProductMaxBytes).map fun v => { i with product := v }
  else if k = 2 then (text kIdentityFwVersionMaxBytes).map fun v => { i with fwVersion := v }
  else if k = 3 then (text kIdentityHubNameMaxBytes).map fun v => { i with hubName := v }
  else if k = 5 then uint.map fun v => { i with hubInstanceId := some v }
  else skip i

/-- One key of a WELCOME. -/
def WelcomeFields.field (k : Nat) (f : WelcomeFields) : CborDecoder WelcomeFields :=
  if k = CborKey.protoVer then u8.map fun v => { f with protoVer := some v }
  else if k = CborKey.sessionId then uint.map fun v => { f with sessionId := some v }
  else if k = CborKey.bootId then uint.map fun v => { f with bootId := some v }
  else if k = CborKey.catalogEtag then (arr 8).map fun v => { f with catalogEtag := some v }
  else if k = CborKey.cfgGen then uint.map fun v => { f with cfgGen := some v }
  else if k = CborKey.limits then (record {} LimitsFields.field).map fun v => { f with limits := some v }
  else if k = CborKey.roles then uint.map fun v => { f with roles := some v }
  else if k = CborKey.deadmanMs then uint.map fun v => { f with deadmanMs := some v }
  else if k = CborKey.deadmanPolicy then uint.map fun v => { f with deadmanPolicy := some v }
  else if k = CborKey.nonce then (arr 8).map fun v => { f with nonce := some v }
  else if k = CborKey.grants then
    (list kWelcomeMaxGrants (record {} GrantFields.field)).map fun v => { f with grants := some v }
  else if k = CborKey.grantedPublishes then
    (list kWelcomeMaxGrantedPublishes (record {} GrantedPublishFields.field)).map fun v => { f with grantedPublishes := v }
  else if k = CborKey.identity then (record {} identityField).map fun v => { f with identity := some v }
  else if k = CborKey.trust then decodeTrustMap.map fun v => { f with trust := some v }
  else if k = CborKey.wsPort then u16.map fun v => { f with wsPort := v }
  else if k = CborKey.ipv4 then u32.map fun v => { f with ipv4 := v }
  else skip f

/-- A role of a GRANT is an access level. -/
def GrantMsgFields.field (k : Nat) (f : GrantMsgFields) : CborDecoder GrantMsgFields :=
  if k = CborKey.grants then
    (list kGrantMsgMaxGrants (record {} GrantFields.field)).map fun v => { f with grants := some v }
  else if k = CborKey.roles then
    (uintWithin AccessLevel.configure.code.toNat).map fun v => { f with roles := some v.toUInt8 }
  else if k = CborKey.grantedPublishes then
    (list kWelcomeMaxGrantedPublishes (record {} GrantedPublishFields.field)).map fun v => { f with grantedPublishes := v }
  else skip f

/-- The grant, its integers cut to the widths of the struct. -/
def GrantFields.grant (f : GrantFields) : Grant :=
  { channelId := f.channelId.toUInt16, grantedRateHz := f.grantedRateHz, priority := f.priority.toUInt8 }

/-- The granted publish, cut likewise. -/
def GrantedPublishFields.publish (f : GrantedPublishFields) : GrantedPublish :=
  { channelId := f.channelId.toUInt16, grantedRateHz := f.grantedRateHz, burst := f.burst, curveFamily := f.curveFamily
    requestedCurveFamily := f.requestedCurveFamily }

/-- The limits, cut likewise. -/
def LimitsFields.limits (f : LimitsFields) : WelcomeLimits :=
  { maxFrame := f.maxFrame.toUInt32, maxSubscriptions := f.maxSubscriptions.toUInt32
    retainedPending := f.retainedPending.toUInt32, maxSubscriptionsPerFrame := f.maxSubscriptionsPerFrame.toUInt32 }

/-- The message: what every WELCOME says must be there. -/
def WelcomeFields.msg (f : WelcomeFields) : Except DecodeError WelcomeMsg :=
  match f.protoVer, f.sessionId, f.bootId, f.catalogEtag, f.cfgGen, f.limits, f.roles, f.deadmanMs, f.deadmanPolicy,
    f.nonce, f.grants with
  | some protoVer, some sessionId, some bootId, some catalogEtag, some cfgGen, some limits, some roles,
    some deadmanMs, some deadmanPolicy, some nonce, some grants =>
    .ok { protoVer, sessionId := sessionId.toUInt32, bootId := bootId.toUInt32, catalogEtag, cfgGen := cfgGen.toUInt16
          limits := limits.limits, roles := roles.toUInt8, deadmanMs := deadmanMs.toUInt32
          deadmanPolicy := deadmanPolicy.toUInt8, nonce, grants := grants.map GrantFields.grant
          grantedPublishes := f.grantedPublishes.map GrantedPublishFields.publish, identity := f.identity
          wsPort := f.wsPort, ipv4 := f.ipv4, trust := f.trust }
  | _, _, _, _, _, _, _, _, _, _, _ => .error .malformed

/-- A GRANT needs its list of subscriptions. -/
def GrantMsgFields.msg (f : GrantMsgFields) : Except DecodeError GrantMsg :=
  match f.grants with
  | some grants => .ok { roles := f.roles, grants := grants.map GrantFields.grant
                         grantedPublishes := f.grantedPublishes.map GrantedPublishFields.publish }
  | none => .error .malformed

def welcomeFields : CborDecoder WelcomeFields := record {} WelcomeFields.field

/-- The keys read must make a WELCOME. -/
def decodeWelcome (bs : Bytes) : Except DecodeError WelcomeMsg := do
  let f ← welcomeFields.run bs
  f.msg

def grantMsgFields : CborDecoder GrantMsgFields := record {} GrantMsgFields.field

/-- The keys read must make a GRANT. -/
def decodeGrant (bs : Bytes) : Except DecodeError GrantMsg := do
  let f ← grantMsgFields.run bs
  f.msg

/-! ## Trees of the parts -/

theorem getD_nonzero16 (v : UInt16) : (nonzero16 v).getD 0 = v := by
  unfold nonzero16
  split_ifs with h
  · exact h.symm
  · rfl

section Trees

variable (g : Grant) (gp : GrantedPublish) (l : WelcomeLimits)

/-- A grant on the wire. -/
def Grant.tree : CborTree :=
  .map [(CborKey.priority, .u8 g.priority), (CborKey.grantedRateHz, .f32 g.grantedRateHz),
    (CborKey.channelId, .u16 g.channelId)]

/-- A granted publish, key by key. -/
def GrantedPublish.pairs : List (Nat × CborTree) :=
  [(CborKey.grantedRateHz, .f32 gp.grantedRateHz), (CborKey.channelId, .u16 gp.channelId)] ++
    optPair CborKey.burst gp.burst .f32 ++ optPair CborKey.curveFamily gp.curveFamily .u8 ++
    optPair CborKey.requestedCurveFamily gp.requestedCurveFamily .u8

/-- A granted publish on the wire. -/
def GrantedPublish.tree : CborTree := .map gp.pairs

/-- The limits, key by key. -/
def WelcomeLimits.pairs : List (Nat × CborTree) :=
  [(1, .u32 l.maxFrame), (2, .u32 l.maxSubscriptions), (3, .u32 l.retainedPending)] ++
    optPair 4 (nonzero l.maxSubscriptionsPerFrame) .u32

/-- The limits on the wire. -/
def WelcomeLimits.tree : CborTree := .map l.pairs

/-- What is read of a grant. -/
def Grant.fields : GrantFields :=
  { channelId := g.channelId.toUInt64, grantedRateHz := g.grantedRateHz, priority := g.priority.toUInt64 }

/-- What is read of a granted publish. -/
def GrantedPublish.fields : GrantedPublishFields :=
  { channelId := gp.channelId.toUInt64, grantedRateHz := gp.grantedRateHz, burst := gp.burst
    curveFamily := gp.curveFamily, requestedCurveFamily := gp.requestedCurveFamily }

/-- What is read of the limits. -/
def WelcomeLimits.fields : LimitsFields :=
  { maxFrame := l.maxFrame.toUInt64, maxSubscriptions := l.maxSubscriptions.toUInt64
    retainedPending := l.retainedPending.toUInt64, maxSubscriptionsPerFrame := l.maxSubscriptionsPerFrame.toUInt64 }

@[simp] theorem Grant.fields_grant : g.fields.grant = g := by
  simp [fields, GrantFields.grant]

@[simp] theorem GrantedPublish.fields_publish : gp.fields.publish = gp := by
  simp [fields, GrantedPublishFields.publish]

@[simp] theorem WelcomeLimits.fields_limits : l.fields.limits = l := by
  simp [fields, LimitsFields.limits]

/-- A grant is written as its map. -/
theorem encodeGrantEntry_emit (w : CborWriter) : encodeGrantEntry w g = emit g.tree w := rfl

/-- A granted publish is written as its map. -/
theorem encodeGrantedPublish_emit (w : CborWriter) : encodeGrantedPublish w gp = emit gp.tree w := by
  rw [encodeGrantedPublish, GrantedPublish.tree, emit]
  simp only [GrantedPublish.pairs, List.length_append, length_optPair, List.length_cons, List.length_nil,
    emitPairs_append, emitPairs_f32, emitPairs_u8]
  rfl

/-- The pairs of the two lists of grants. -/
def grantPairs (gs : List Grant) (ps : List GrantedPublish) : List (Nat × CborTree) :=
  [(CborKey.grants, .arrayOf Grant.tree gs)] ++
    optPair CborKey.grantedPublishes (listOpt ps) (.arrayOf GrantedPublish.tree)

/-- The two lists are written, the second where it is not empty. -/
theorem encodeGrantLists_emit (w : CborWriter) (gs : List Grant) (ps : List GrantedPublish) :
    encodeGrantLists w gs ps = emitPairs (grantPairs gs ps) w := by
  rw [encodeGrantLists, grantPairs, emitPairs_append,
    emitPairs_arrayOf CborKey.grantedPublishes _ (fun gp w => encodeGrantedPublish_emit gp w)]
  simp only [emitPairs_cons, emitPairs_nil, CborTree.arrayOf, emit, List.length_map]
  rw [foldl_emit fun g w => encodeGrantEntry_emit g w]

theorem length_grantPairs (gs : List Grant) (ps : List GrantedPublish) :
    (grantPairs gs ps).length = 1 + optCount (listOpt ps) := by
  simp [grantPairs, Nat.add_comm]

/-- The limits are written as their map. -/
theorem encodeWelcomeLimits_emit (w : CborWriter) : encodeWelcomeLimits w l = emit l.tree w := by
  rw [encodeWelcomeLimits, WelcomeLimits.tree, emit]
  simp only [WelcomeLimits.pairs, List.length_append, length_optPair, List.length_cons, List.length_nil,
    emitPairs_append, emitPairs_u32]
  rfl

theorem Grant.typed_tree : Typed g.tree := by
  refine .map (by simp) ?_ ?_
  · simp [CborKey.priority, CborKey.grantedRateHz, CborKey.channelId]
  · simp only [List.forall_mem_cons]
    exact ⟨typed_u8 _, .f32 _, typed_u16 _, by simp⟩

theorem GrantedPublish.typed_tree : Typed gp.tree := by
  have h₁ := optCount_le gp.burst
  have h₂ := optCount_le gp.curveFamily
  have h₃ := optCount_le gp.requestedCurveFamily
  refine .map ?_ ?_ ?_
  · simp only [pairs, List.length_append, length_optPair, List.length_cons, List.length_nil]
    omega
  · simp only [pairs, List.forall_mem_append, forall_mem_optPair, List.forall_mem_cons]
    simp [CborKey.grantedRateHz, CborKey.channelId, CborKey.burst, CborKey.curveFamily, CborKey.requestedCurveFamily]
  · simp only [pairs, List.append_assoc, List.forall_mem_append, forall_mem_optPair, List.forall_mem_cons]
    exact ⟨⟨.f32 _, typed_u16 _, by simp⟩, fun v _ => .f32 v, fun v _ => typed_u8 v, fun v _ => typed_u8 v⟩

/-- Lists within the limits of the message are lists a writer can be asked for. -/
theorem typed_grantPairs {gs : List Grant} {ps : List GrantedPublish} (hg : gs.length ≤ kWelcomeMaxGrants)
    (hp : ps.length ≤ kWelcomeMaxGrantedPublishes) :
    ∀ p ∈ grantPairs gs ps, p.1 < 2 ^ 64 ∧ Typed p.2 := by
  have hgs : kWelcomeMaxGrants = 16 := rfl
  have hps : kWelcomeMaxGrantedPublishes = 8 := rfl
  simp only [grantPairs, List.forall_mem_append, forall_mem_optPair, List.forall_mem_singleton]
  refine ⟨⟨by decide, typed_arrayOf Grant.typed_tree (by omega)⟩, fun l hl => ⟨by decide, ?_⟩⟩
  obtain rfl := mem_listOpt hl
  exact typed_arrayOf GrantedPublish.typed_tree (by omega)

theorem WelcomeLimits.typed_tree : Typed l.tree := by
  have h := optCount_le (nonzero l.maxSubscriptionsPerFrame)
  refine .map ?_ ?_ ?_
  · simp only [pairs, List.length_append, length_optPair, List.length_cons, List.length_nil]
    omega
  · simp only [pairs, List.forall_mem_append, forall_mem_optPair, List.forall_mem_cons]
    simp
  · simp only [pairs, List.forall_mem_append, forall_mem_optPair, List.forall_mem_cons]
    exact ⟨⟨typed_u32 _, typed_u32 _, typed_u32 _, by simp⟩, fun v _ => typed_u32 v⟩

/-- A grant is read back. -/
theorem Grant.ofTree_tree : (record {} GrantFields.field).ofTree g.tree = some g.fields := by
  rw [tree, record_ofTree]
  simp +decide [GrantFields.field, fields]

/-- A granted publish is read back. -/
theorem GrantedPublish.ofTree_tree : (record {} GrantedPublishFields.field).ofTree gp.tree = some gp.fields := by
  rw [tree, record_ofTree]
  simp only [pairs, List.append_assoc]
  rw [foldlM_resume { grantedRateHz := gp.grantedRateHz, channelId := gp.channelId.toUInt64 } (by
      simp +decide [GrantedPublishFields.field]),
    foldlM_optPair (fun f o => { f with burst := o }) id rfl (by simp +decide [GrantedPublishFields.field]),
    foldlM_optPair (fun f o => { f with curveFamily := o }) id rfl (by simp +decide [GrantedPublishFields.field]),
    foldlM_optPair_last (fun f o => { f with requestedCurveFamily := o }) id rfl (by
      simp +decide [GrantedPublishFields.field])]
  simp [fields]

/-- The limits are read back. -/
theorem WelcomeLimits.ofTree_tree : (record {} LimitsFields.field).ofTree l.tree = some l.fields := by
  rw [tree, record_ofTree]
  rw [pairs, foldlM_resume { maxFrame := l.maxFrame.toUInt64, maxSubscriptions := l.maxSubscriptions.toUInt64
                             retainedPending := l.retainedPending.toUInt64 } (by simp [LimitsFields.field]),
    foldlM_optPair_last (fun f o => { f with maxSubscriptionsPerFrame := (o.getD 0).toUInt64 }) id rfl (by
      simp [LimitsFields.field])]
  simp [fields, getD_nonzero]

end Trees

end Wire

/-! ## Identity -/

namespace IdentityInfo

variable (i : IdentityInfo)

def pairs : List (Nat × CborTree) :=
  optPair 1 (textOpt i.product) .text ++ optPair 2 (textOpt i.fwVersion) .text ++
    optPair 3 (textOpt i.hubName) .text ++ optPair 5 i.hubInstanceId .u64

def tree : CborTree := .map i.pairs

/-- The texts are as long as the encoder wants them. -/
structure Bounded : Prop where
  product : i.product.length ≤ Wire.kIdentityProductMaxBytes
  fwVersion : i.fwVersion.length ≤ Wire.kIdentityFwVersionMaxBytes
  hubName : i.hubName.length ≤ Wire.kIdentityHubNameMaxBytes

/-- The identity is written as its map. -/
theorem encodeIdentity_emit (w : CborWriter) : encodeIdentity w i = emit i.tree w := by
  rw [encodeIdentity, tree, emit]
  simp only [pairs, keyCount, List.length_append, length_optPair, emitPairs_append, emitPairs_text, emitPairs_u64]

theorem emitPairs_identity (w : CborWriter) (o : Option IdentityInfo) :
    emitPairs (optPair CborKey.identity o tree) w = w.optKey CborKey.identity o encodeIdentity := by
  cases o with
  | none => rfl
  | some i => exact (encodeIdentity_emit i _).symm

theorem typed_tree : Typed i.tree := by
  have h₁ := optCount_le (textOpt i.product)
  have h₂ := optCount_le (textOpt i.fwVersion)
  have h₃ := optCount_le (textOpt i.hubName)
  have h₄ := optCount_le i.hubInstanceId
  refine .map ?_ ?_ ?_
  · simp only [pairs, List.length_append, length_optPair]
    omega
  · simp only [pairs, List.forall_mem_append, forall_mem_optPair]
    simp
  · simp only [pairs, List.append_assoc, List.forall_mem_append, forall_mem_optPair]
    exact ⟨fun s _ => .text s, fun s _ => .text s, fun s _ => .text s, fun v _ => typed_u64 v⟩

theorem mem_textOpt {s s' : Bytes} (h : s' ∈ textOpt s) : s' = s := by
  rw [textOpt, Option.mem_def] at h
  split_ifs at h
  exact (Option.some.inj h).symm

theorem getD_textOpt (s : Bytes) : (textOpt s).getD [] = s := by
  cases s <;> rfl

variable {i}

theorem ofTree_tree (h : i.Bounded) : (record {} Wire.identityField).ofTree i.tree = some i := by
  rw [tree, record_ofTree]
  simp only [pairs, List.append_assoc]
  rw [foldlM_optPair (fun i o => { i with product := o.getD [] }) id rfl (by
      intro s hs
      obtain rfl := mem_textOpt hs
      simp [Wire.identityField, h.product]),
    foldlM_optPair (fun i o => { i with fwVersion := o.getD [] }) id rfl (by
      intro s hs
      obtain rfl := mem_textOpt hs
      simp [Wire.identityField, h.fwVersion]),
    foldlM_optPair (fun i o => { i with hubName := o.getD [] }) id rfl (by
      intro s hs
      obtain rfl := mem_textOpt hs
      simp [Wire.identityField, h.hubName]),
    foldlM_optPair_last (fun i o => { i with hubInstanceId := o }) id rfl (by simp [Wire.identityField])]
  simp [getD_textOpt]

end IdentityInfo

namespace Wire

/-! ## WELCOME -/

namespace WelcomeMsg

/-- The identity, when it says anything. -/
def identity' (m : WelcomeMsg) : Option IdentityInfo := m.identity.filter fun i => i.keyCount != 0

/-- The trust map, unless nothing is in it. -/
def trust' (m : WelcomeMsg) : Option TrustMap := m.trust.filter TrustMap.any

/-- What is left of a message on the wire: sub-maps with nothing in them are not sent. -/
def collapse (m : WelcomeMsg) : WelcomeMsg := { m with identity := m.identity', trust := m.trust' }

def fields (m : WelcomeMsg) : WelcomeFields :=
  { protoVer := some m.protoVer, sessionId := some m.sessionId.toUInt64, bootId := some m.bootId.toUInt64
    catalogEtag := some m.catalogEtag, cfgGen := some m.cfgGen.toUInt64, limits := some m.limits.fields
    roles := some m.roles.toUInt64, deadmanMs := some m.deadmanMs.toUInt64
    deadmanPolicy := some m.deadmanPolicy.toUInt64, nonce := some m.nonce, grants := some (m.grants.map Grant.fields)
    grantedPublishes := m.grantedPublishes.map GrantedPublish.fields, identity := m.identity, wsPort := m.wsPort
    ipv4 := m.ipv4, trust := m.trust }

/-- The fields of a message make the message. -/
theorem fields_msg (m : WelcomeMsg) : m.fields.msg = .ok m := by
  simp [fields, WelcomeFields.msg, Function.comp_def]

def pairs (m : WelcomeMsg) : List (Nat × CborTree) :=
  [(CborKey.protoVer, .u8 m.protoVer), (CborKey.sessionId, .u32 m.sessionId), (CborKey.bootId, .u32 m.bootId),
    (CborKey.catalogEtag, .arr m.catalogEtag), (CborKey.cfgGen, .u16 m.cfgGen), (CborKey.limits, m.limits.tree),
    (CborKey.roles, .u8 m.roles), (CborKey.deadmanMs, .u32 m.deadmanMs),
    (CborKey.deadmanPolicy, .u8 m.deadmanPolicy), (CborKey.nonce, .arr m.nonce)] ++
    grantPairs m.grants m.grantedPublishes ++
    optPair CborKey.identity m.identity' IdentityInfo.tree ++ optPair CborKey.trust m.trust' TrustMap.tree ++
    optPair CborKey.wsPort (nonzero16 m.wsPort) .u16 ++ optPair CborKey.ipv4 (nonzero m.ipv4) .u32

def tree (m : WelcomeMsg) : CborTree := .map m.pairs

/-- The bounds the encoder checks. -/
structure Bounded (m : WelcomeMsg) : Prop where
  grants : m.grants.length ≤ kWelcomeMaxGrants
  grantedPublishes : m.grantedPublishes.length ≤ kWelcomeMaxGrantedPublishes
  identity : ∀ i ∈ m.identity', i.Bounded

/-- A WELCOME that encodes is within the limits its encoder checks. -/
theorem encodeWelcome_bounded {m : WelcomeMsg} {cap : Nat} {bs : Bytes} (h : encodeWelcome m cap = some bs) :
    m.Bounded := by
  unfold encodeWelcome at h
  dsimp only at h
  split_ifs at h with h₁ h₂ h₃
  refine ⟨not_lt.mp h₁, not_lt.mp h₂, fun i hi => ?_⟩
  rw [identity'] at hi
  rw [Option.mem_def.mp hi, Option.any_some] at h₃
  simp only [Bool.or_eq_true, decide_eq_true_eq, not_or, not_lt] at h₃
  exact ⟨h₃.1.1, h₃.1.2, h₃.2⟩

/-- Within them it is written as its tree. -/
theorem encodeWelcome_emit {m : WelcomeMsg} (h : m.Bounded) (cap : Nat) :
    encodeWelcome m cap = (emit m.tree { cap }).result := by
  obtain ⟨h₁, h₂, h₃⟩ := h
  have hid : ¬(m.identity'.any fun i => kIdentityProductMaxBytes < i.product.length ||
      kIdentityFwVersionMaxBytes < i.fwVersion.length || kIdentityHubNameMaxBytes < i.hubName.length) = true := by
    cases hi : m.identity' with
    | none => simp
    | some i =>
      obtain ⟨ha, hb, hc⟩ := h₃ i hi
      simpa [not_or] using ⟨⟨ha, hb⟩, hc⟩
  rw [identity'] at hid
  unfold encodeWelcome
  dsimp only
  rw [if_neg (not_lt.mpr h₁), if_neg (not_lt.mpr h₂), if_neg hid, tree, emit]
  simp only [pairs, List.length_append, length_optPair, length_grantPairs, List.length_cons, List.length_nil,
    emitPairs_append, emitPairs_u16, emitPairs_u32, TrustMap.emitPairs_trust, IdentityInfo.emitPairs_identity,
    ← encodeGrantLists_emit]
  simp only [emitPairs_cons, emitPairs_nil, ← encodeWelcomeLimits_emit]
  rw [← Nat.add_assoc]
  rfl

theorem typed_tree {m : WelcomeMsg} (h : m.Bounded) : Typed m.tree := by
  obtain ⟨h₁, h₂, -⟩ := h
  have hgrants := typed_grantPairs h₁ h₂
  refine .map ?_ ?_ ?_
  · have h₁ := optCount_le (listOpt m.grantedPublishes)
    have h₂ := optCount_le m.identity'
    have h₃ := optCount_le m.trust'
    have h₄ := optCount_le (nonzero16 m.wsPort)
    have h₅ := optCount_le (nonzero m.ipv4)
    simp only [pairs, List.length_append, length_optPair, length_grantPairs, List.length_cons, List.length_nil]
    omega
  · simp only [pairs, List.append_assoc, List.forall_mem_append, forall_mem_optPair, List.forall_mem_cons]
    refine ⟨?_, fun p hp => (hgrants p hp).1, ?_⟩
    all_goals simp [CborKey.protoVer, CborKey.sessionId, CborKey.bootId, CborKey.catalogEtag, CborKey.cfgGen,
      CborKey.limits, CborKey.roles, CborKey.deadmanMs, CborKey.deadmanPolicy, CborKey.nonce, CborKey.identity,
      CborKey.trust, CborKey.wsPort, CborKey.ipv4]
  · simp only [pairs, List.append_assoc, List.forall_mem_append, forall_mem_optPair, List.forall_mem_cons]
    exact ⟨⟨typed_u8 _, typed_u32 _, typed_u32 _, .bytes _, typed_u16 _, m.limits.typed_tree, typed_u8 _, typed_u32 _,
      typed_u8 _, .bytes _, by simp⟩, fun p hp => (hgrants p hp).2, fun i _ => i.typed_tree, fun t _ => t.typed_tree,
      fun v _ => typed_u16 v, fun v _ => typed_u32 v⟩

theorem ofTree_tree {m : WelcomeMsg} (h : m.Bounded) (ht : ∀ t ∈ m.trust', t.Readable) :
    welcomeFields.ofTree m.tree = some m.collapse.fields := by
  obtain ⟨h₁, h₂, h₃⟩ := h
  rw [tree, welcomeFields, record_ofTree]
  simp only [pairs, grantPairs, List.append_assoc]
  rw [foldlM_resume { protoVer := some m.protoVer, sessionId := some m.sessionId.toUInt64
                      bootId := some m.bootId.toUInt64, catalogEtag := some m.catalogEtag
                      cfgGen := some m.cfgGen.toUInt64, limits := some m.limits.fields
                      roles := some m.roles.toUInt64, deadmanMs := some m.deadmanMs.toUInt64
                      deadmanPolicy := some m.deadmanPolicy.toUInt64, nonce := some m.nonce } (by
      simp +decide [WelcomeFields.field, WelcomeLimits.ofTree_tree]),
    foldlM_resume { protoVer := some m.protoVer, sessionId := some m.sessionId.toUInt64
                    bootId := some m.bootId.toUInt64, catalogEtag := some m.catalogEtag
                    cfgGen := some m.cfgGen.toUInt64, limits := some m.limits.fields
                    roles := some m.roles.toUInt64, deadmanMs := some m.deadmanMs.toUInt64
                    deadmanPolicy := some m.deadmanPolicy.toUInt64, nonce := some m.nonce
                    grants := some (m.grants.map Grant.fields) } (by
      simp +decide [WelcomeFields.field, CborTree.arrayOf, list_ofTree Grant.ofTree_tree h₁]),
    foldlM_optPair (fun f o => { f with grantedPublishes := o.getD [] }) (List.map GrantedPublish.fields) rfl (by
      intro l hl
      obtain rfl := mem_listOpt hl
      simp +decide [WelcomeFields.field, CborTree.arrayOf, list_ofTree GrantedPublish.ofTree_tree h₂]),
    foldlM_optPair (fun f o => { f with identity := o }) id rfl (by
      intro i hi
      simp +decide [WelcomeFields.field, IdentityInfo.ofTree_tree (h₃ i hi)]),
    foldlM_optPair (fun f o => { f with trust := o }) id rfl (by
      intro t hmem
      simp +decide [WelcomeFields.field, TrustMap.ofTree_of_readable (ht t hmem)]),
    foldlM_optPair (fun f o => { f with wsPort := o.getD 0 }) id rfl (by simp +decide [WelcomeFields.field]),
    foldlM_optPair_last (fun f o => { f with ipv4 := o.getD 0 }) id rfl (by simp +decide [WelcomeFields.field])]
  simp [fields, collapse, getD_listOpt, getD_nonzero, getD_nonzero16]

/-- What is read back had a readable trust map. -/
theorem readable_of_ofTree {m : WelcomeMsg} {f : WelcomeFields} (h : welcomeFields.ofTree m.tree = some f) :
    ∀ t ∈ m.trust', t.Readable := by
  intro t ht
  by_contra hbad
  have hmem : (CborKey.trust, t.tree) ∈ m.pairs := by
    simp only [pairs, List.mem_append]
    exact .inl (.inl (.inr (mem_optPair ht)))
  rw [tree, welcomeFields, record_ofTree, foldlM_none (fun s p => (WelcomeFields.field p.1 s).ofTree p.2) hmem (by
    simp +decide [WelcomeFields.field, TrustMap.ofTree_of_not_readable hbad])] at h
  cases h

/-- **A WELCOME that was encoded decodes to itself iff its trust map is readable.** -/
theorem decode_iff {m m' : WelcomeMsg} {cap : Nat} {bs : Bytes} (hcap : cap < 2 ^ 64)
    (h : encodeWelcome m cap = some bs) :
    decodeWelcome bs = .ok m' ↔ (∀ t ∈ m.trust', t.Readable) ∧ m' = m.collapse := by
  have hbounded := encodeWelcome_bounded h
  rw [encodeWelcome_emit hbounded] at h
  obtain ⟨rfl, hfits, -⟩ := result_emit (typed_tree hbounded) hcap h
  rw [decodeWelcome, run_bind_encode hfits]
  constructor
  · rintro ⟨f, hf, hmsg⟩
    have ht := readable_of_ofTree hf
    obtain rfl := Option.some.inj ((ofTree_tree hbounded ht).symm.trans hf)
    exact ⟨ht, (Except.ok.inj (m.collapse.fields_msg.symm.trans hmsg)).symm⟩
  · rintro ⟨ht, rfl⟩
    exact ⟨_, ofTree_tree hbounded ht, fields_msg _⟩

end WelcomeMsg

/-! ## GRANT -/

namespace GrantMsg

def fields (m : GrantMsg) : GrantMsgFields :=
  { roles := m.roles, grants := some (m.grants.map Grant.fields)
    grantedPublishes := m.grantedPublishes.map GrantedPublish.fields }

/-- The fields of a GRANT make the GRANT. -/
theorem fields_msg (m : GrantMsg) : m.fields.msg = .ok m := by
  simp [fields, GrantMsgFields.msg, Function.comp_def]

def pairs (m : GrantMsg) : List (Nat × CborTree) :=
  optPair CborKey.roles m.roles .u8 ++ grantPairs m.grants m.grantedPublishes

def tree (m : GrantMsg) : CborTree := .map m.pairs

/-- The bounds the encoder checks. -/
structure Bounded (m : GrantMsg) : Prop where
  grants : m.grants.length ≤ kWelcomeMaxGrants
  grantedPublishes : m.grantedPublishes.length ≤ kWelcomeMaxGrantedPublishes

/-- The role is an access level. -/
def Level (m : GrantMsg) : Prop := ∀ r ∈ m.roles, r ≤ AccessLevel.configure.code

/-- A GRANT that encodes is within its limits. -/
theorem encodeGrant_bounded {m : GrantMsg} {cap : Nat} {bs : Bytes} (h : encodeGrant m cap = some bs) : m.Bounded := by
  unfold encodeGrant at h
  dsimp only at h
  split_ifs at h with h₁ h₂
  exact ⟨not_lt.mp h₁, not_lt.mp h₂⟩

/-- Within them it is written as its tree. -/
theorem encodeGrant_emit {m : GrantMsg} (h : m.Bounded) (cap : Nat) :
    encodeGrant m cap = (emit m.tree { cap }).result := by
  have hcap : kGrantMsgMaxGrants = kWelcomeMaxGrants := rfl
  unfold encodeGrant
  dsimp only
  rw [hcap, if_neg (not_lt.mpr h.grants), if_neg (not_lt.mpr h.grantedPublishes), tree, emit]
  simp only [pairs, List.length_append, length_optPair, length_grantPairs, emitPairs_append, emitPairs_u8,
    ← encodeGrantLists_emit]
  rw [Nat.add_comm]

theorem typed_tree {m : GrantMsg} (h : m.Bounded) : Typed m.tree := by
  have hgrants := typed_grantPairs h.grants h.grantedPublishes
  refine .map ?_ ?_ ?_
  · have h₁ := optCount_le m.roles
    have h₂ := optCount_le (listOpt m.grantedPublishes)
    simp only [pairs, List.length_append, length_optPair, length_grantPairs]
    omega
  · simp only [pairs, List.forall_mem_append, forall_mem_optPair]
    exact ⟨fun _ _ => by decide, fun p hp => (hgrants p hp).1⟩
  · simp only [pairs, List.forall_mem_append, forall_mem_optPair]
    exact ⟨fun v _ => typed_u8 v, fun p hp => (hgrants p hp).2⟩

/-- A role is read when it is one of the levels. -/
theorem level_ofTree {r : UInt8} :
    (uintWithin AccessLevel.configure.code.toNat).ofTree (.u8 r) =
      if r ≤ AccessLevel.configure.code then some r.toUInt64 else none := by
  have hr := r.toNat_lt
  rw [uintWithin, andThen_ofTree, uint_u8, Option.bind_some, UInt8.toNat_toUInt64]
  by_cases h : r ≤ AccessLevel.configure.code
  · rw [if_neg (by rw [UInt8.le_iff_toNat_le] at h; omega), if_pos h]
    rfl
  · rw [if_pos (by rw [UInt8.le_iff_toNat_le] at h; omega), if_neg h]
    rfl

theorem ofTree_tree {m : GrantMsg} (h : m.Bounded) (hlevel : m.Level) :
    grantMsgFields.ofTree m.tree = some m.fields := by
  have hcap : kGrantMsgMaxGrants = kWelcomeMaxGrants := rfl
  obtain ⟨h₁, h₂⟩ := h
  rw [tree, grantMsgFields, record_ofTree]
  simp only [pairs, grantPairs]
  rw [foldlM_optPair (fun f o => { f with roles := o }) id rfl (by
      intro r hr
      simp +decide [GrantMsgFields.field, level_ofTree, hlevel r hr]),
    foldlM_resume { roles := m.roles, grants := some (m.grants.map Grant.fields) } (by
      simp +decide [GrantMsgFields.field, CborTree.arrayOf, list_ofTree Grant.ofTree_tree (hcap ▸ h₁)]),
    foldlM_optPair_last (fun f o => { f with grantedPublishes := o.getD [] }) (List.map GrantedPublish.fields) rfl (by
      intro l hl
      obtain rfl := mem_listOpt hl
      simp +decide [GrantMsgFields.field, CborTree.arrayOf, list_ofTree GrantedPublish.ofTree_tree h₂])]
  simp [fields, getD_listOpt]

/-- What is read back had an access level for a role. -/
theorem level_of_ofTree {m : GrantMsg} {f : GrantMsgFields} (h : grantMsgFields.ofTree m.tree = some f) : m.Level := by
  intro r hr
  by_contra hbad
  have hmem : (CborKey.roles, .u8 r) ∈ m.pairs := List.mem_append_left _ (mem_optPair hr)
  rw [tree, grantMsgFields, record_ofTree, foldlM_none (fun s p => (GrantMsgFields.field p.1 s).ofTree p.2) hmem (by
    simp +decide [GrantMsgFields.field, level_ofTree, hbad])] at h
  cases h

/-- **A GRANT that was encoded decodes to itself iff its role is an access level.** -/
theorem decode_iff {m m' : GrantMsg} {cap : Nat} {bs : Bytes} (hcap : cap < 2 ^ 64) (h : encodeGrant m cap = some bs) :
    decodeGrant bs = .ok m' ↔ m.Level ∧ m' = m := by
  have hbounded := encodeGrant_bounded h
  rw [encodeGrant_emit hbounded] at h
  obtain ⟨rfl, hfits, -⟩ := result_emit (typed_tree hbounded) hcap h
  rw [decodeGrant, run_bind_encode hfits]
  constructor
  · rintro ⟨f, hf, hmsg⟩
    have hlevel := level_of_ofTree hf
    obtain rfl := Option.some.inj ((ofTree_tree hbounded hlevel).symm.trans hf)
    exact ⟨hlevel, (Except.ok.inj (m.fields_msg.symm.trans hmsg)).symm⟩
  · rintro ⟨hlevel, rfl⟩
    exact ⟨_, ofTree_tree hbounded hlevel, fields_msg _⟩

end GrantMsg

end Wire

end SlopSync
